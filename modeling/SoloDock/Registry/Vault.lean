import SoloDock.Registry.Credentials

/-!
# What the credential handlers act on

`Vault` and what each call does to it, for every way the environment may let the call end,
and the service the handlers make up together: requests wait for the catalog lock, a
retried deletion and the reconciler run the finalizer, and a restart runs startup.
-/

namespace SoloDock.Credentials

open Lib Mutation

/-- The ledger, the credentials, the trash, and an account no program reads: the operations
that have published a credential. -/
structure Vault where
  ledger : CredentialLedger
  live : List Credential
  trash : List Tombstone
  next : Uuid
  published : List Uuid
  deriving DecidableEq, Repr

/-- How far the creation of a directory gets. -/
inductive PublishChoice where
  | failed
  | conflict
  | renamed (synced : Bool)
  deriving DecidableEq, Repr

/-- How far the move to the trash gets. -/
inductive MoveChoice where
  | failed
  | conflict
  | renamed (rest : FileTree Node) (synced : Bool)
  deriving DecidableEq, Repr

/-- How far a recursive delete gets. -/
inductive RemovalChoice where
  | stopped (order : List Path)
  | removed
  deriving DecidableEq, Repr

abbrev Choice : Call → Type
  | .claim _ => Outcome × Nat
  | .finish _ _ _ _ _ => Outcome
  | .markInterrupted _ _ => Outcome
  | .interruptPending => Outcome
  | .recordOf _ _ => Bool
  | .directoryExists _ => Option StoreError
  | .loadMetadata _ => Option StoreError
  | .load _ => Option StoreError
  | .list => Option StoreError
  | .newUuid => Uuid
  | .nowUtc => Instant
  | .publish _ _ => PublishChoice
  | .placeSecret _ _ _ => Outcome
  | .writeMetadata _ => Outcome
  | .exactTombstone _ _ => Option StoreError
  | .moveToTrash _ _ => MoveChoice
  | .tombstones => Option StoreError
  | .removeTombstone _ _ => RemovalChoice
  | .syncTrash => Outcome
  | .cleanRevisions => Option StoreError
  | .credentialInUse _ => Except String Bool
  | .referencedByApps _ => Nat
  | .refresh => Unit

/-- The marker is there and names this credential and operation. -/
def Tombstone.exact (t : Tombstone) : Bool :=
  t.tree.get ["deletion.toml"] == some (.marker ⟨1, t.id, t.operation⟩)

/-- A read that the file system lets through, or its error. -/
def reading {α : Type} (failure : Option StoreError) (value : Except StoreError α) :
    Except StoreError α :=
  match failure with
  | some error => .error error
  | none => value

namespace Vault

/-- Before the first request. -/
def empty : Vault := ⟨[], [], [], 0, []⟩

def find (w : Vault) (id : Uuid) : Option Credential :=
  w.live.find? fun c => c.metadata.id == id

def isLive (w : Vault) (id : Uuid) : Bool :=
  w.live.any fun c => c.metadata.id == id

def edit (w : Vault) (id : Uuid) (f : Credential → Credential) : Vault :=
  { w with live := w.live.map fun c => if c.metadata.id = id then f c else c }

/-- What a request mentions counts as seen. -/
def mentioned : Request → Uuid
  | .create _ _ _ => 0
  | .update id expected _ _ => max (id + 1) (expected + 1)
  | .delete id expected => max (id + 1) (expected + 1)

def claim (w : Vault) (q : Query) (o : Outcome) (skip : Nat) :
    Except IdempotencyError (ClaimResult Body) × Vault :=
  let fresh := max w.next (mentioned q.request) + skip
  Ledger.answered o w (fun _ ledger => { w with ledger, next := fresh + 1 })
    (w.ledger.claim q.request.route q.key q.request fresh)

def loadMetadata (w : Vault) (id : Uuid) : Except StoreError CredentialMetadata :=
  match w.find id with
  | some c => .ok c.metadata
  | none => .error .io

/-- `load`, with the token of the current secret revision. -/
def load (w : Vault) (id : Uuid) : Except StoreError (CredentialMetadata × String) :=
  match w.find id with
  | none => .error .io
  | some c =>
    match c.tokens.lookup c.metadata.secretRevision with
    | some token => .ok (c.metadata, token)
    | none => .error .io

def list (w : Vault) : Except StoreError (List CredentialMetadata) :=
  if w.live.length > 32 then .error .contentInvalid else .ok (w.live.map (·.metadata))

/-- The rename that makes a new credential visible. -/
def publish (w : Vault) (metadata : CredentialMetadata) (secret : String) :
    PublishChoice → Except StoreError Unit × Vault
  | .failed => (.error .io, w)
  | .conflict => (.error .appConflict, w)
  | .renamed synced =>
    if w.isLive metadata.id then (.error .appConflict, w)
    else
      (if synced then .ok () else .error .io,
        { w with
          live := ⟨metadata, [(metadata.secretRevision, secret)]⟩ :: w.live
          published := metadata.lastOperationId :: w.published })

/-- The write of `credential.toml`. -/
def writeMetadata (w : Vault) (metadata : CredentialMetadata) : Vault :=
  { w.edit metadata.id fun c => { c with metadata } with
    published := metadata.lastOperationId :: w.published }

def hasTombstone (w : Vault) (id operation : Uuid) : Bool :=
  w.trash.any fun t => t.id == id && t.operation == operation

def exactTombstone (w : Vault) (id operation : Uuid) : Except StoreError Bool :=
  match w.trash.find? fun t => t.id == id && t.operation == operation with
  | none => .ok false
  | some t => if t.exact then .ok true else .error .contentInvalid

/-- The directory as it is moved: the marker, and whatever else was in it. -/
def tombstoneTree (id operation : Uuid) (rest : FileTree Node) : FileTree Node :=
  ([], .directory) :: (["deletion.toml"], .marker ⟨1, id, operation⟩) :: rest

/-- The marker is written and the directory renamed. -/
def moveToTrash (w : Vault) (id operation : Uuid) : MoveChoice → Except StoreError Unit × Vault
  | .failed => (.error .io, w)
  | .conflict => (.error .appConflict, w)
  | .renamed rest synced =>
    if !w.isLive id || w.hasTombstone id operation then (.error .appConflict, w)
    else
      (if synced then .ok () else .error .io,
        { w with
          live := w.live.filter fun c => c.metadata.id != id
          trash := ⟨id, operation, tombstoneTree id operation rest⟩ :: w.trash })

/-- `tombstones`: every directory in the trash must be exact. -/
def tombstones (w : Vault) : Except StoreError (List (Uuid × Uuid)) :=
  if w.trash.all Tombstone.exact then .ok (w.trash.map fun t => (t.id, t.operation))
  else .error .contentInvalid

/-- What is left of a tombstone after some removals. -/
def leftover (id operation : Uuid) (order : List Path) (t : Tombstone) : Option Tombstone :=
  if t.id = id ∧ t.operation = operation then
    if (t.tree.removeAll order).isEmpty then none
    else some { t with tree := t.tree.removeAll order }
  else some t

/-- `fs::remove_dir_all` on a tombstone. -/
def removeTombstone (w : Vault) (id operation : Uuid) :
    RemovalChoice → Except StoreError Unit × Vault
  | .stopped order =>
    (.error .io, { w with trash := w.trash.filterMap (leftover id operation order) })
  | .removed =>
    (.ok (), { w with trash := w.trash.filter fun t => !(t.id == id && t.operation == operation) })

def recordOf (w : Vault) (id operation : Uuid) : Option RecordView :=
  w.ledger.view (.credential id) operation

def act (w : Vault) : (e : Call) → Choice e → Answer e × Vault
  | .claim q, (o, skip) => w.claim q o skip
  | .finish route key status body errorCode, o =>
    (o.result .database,
      if o.applied then { w with ledger := w.ledger.finish route key status body errorCode } else w)
  | .markInterrupted route key, o =>
    (o.result .database,
      if o.applied then { w with ledger := w.ledger.markInterrupted route key } else w)
  | .interruptPending, o =>
    (o.result .database, if o.applied then { w with ledger := w.ledger.interruptPending } else w)
  | .recordOf id operation, readable =>
    (if readable then .ok (w.recordOf id operation) else .error .database, w)
  | .directoryExists id, failure => (reading failure (.ok (w.isLive id)), w)
  | .loadMetadata id, failure => (reading failure (w.loadMetadata id), w)
  | .load id, failure => (reading failure (w.load id), w)
  | .list, failure => (reading failure w.list, w)
  | .newUuid, value => (value, w)
  | .nowUtc, now => (now, w)
  | .publish metadata secret, c => w.publish metadata secret c
  | .placeSecret id revision secret, o =>
    (o.result .io,
      if o.applied then w.edit id fun c =>
        { c with tokens := (revision, secret) :: c.tokens } else w)
  | .writeMetadata metadata, o => (o.result .io, if o.applied then w.writeMetadata metadata else w)
  | .exactTombstone id operation, failure => (reading failure (w.exactTombstone id operation), w)
  | .moveToTrash id operation, c => w.moveToTrash id operation c
  | .tombstones, failure => (reading failure w.tombstones, w)
  | .removeTombstone id operation, c => w.removeTombstone id operation c
  | .syncTrash, o => (o.result .io, w)
  | .cleanRevisions, failure => (reading failure (.ok ()), w)
  | .credentialInUse _, answer => (answer, w)
  | .referencedByApps _, answer => (answer, w)
  | .refresh, _ => ((), w)

end Vault

/-- Every call does what it is for. -/
def smooth : (e : Call) → Choice e
  | .claim _ => (.ok, 0)
  | .finish _ _ _ _ _ => .ok
  | .markInterrupted _ _ => .ok
  | .interruptPending => .ok
  | .recordOf _ _ => true
  | .directoryExists _ => none
  | .loadMetadata _ => none
  | .load _ => none
  | .list => none
  | .newUuid => 0
  | .nowUtc => 0
  | .publish _ _ => .renamed true
  | .placeSecret _ _ _ => .ok
  | .writeMetadata _ => .ok
  | .exactTombstone _ _ => none
  | .moveToTrash _ _ => .renamed [] true
  | .tombstones => none
  | .removeTombstone _ _ => .removed
  | .syncTrash => .ok
  | .cleanRevisions => none
  | .credentialInUse _ => .ok false
  | .referencedByApps _ => 0
  | .refresh => ()

/-! ## The service -/

/-- A request of a client, or the reconciler's next round. -/
inductive Arrival where
  | request (query : Query)
  | reconcile
  deriving DecidableEq, Repr

/-- What waits for the catalog lock. -/
inductive Task where
  | attempt (a : Attempt)
  | finalize
  deriving DecidableEq, Repr

def receive : Arrival → Prog Call Answer Empty (Option Task)
  | .reconcile => return some .finalize
  | .request q => do
    match ← Prog.ask (Call.claim q) with
    | .ok (.new operation) => return some (.attempt ⟨q, operation, false⟩)
    | .ok (.resume operation) => return some (.attempt ⟨q, operation, true⟩)
    | .ok (.replay _ _ _) =>
      match q.request with
      | .delete _ _ => return some .finalize
      | _ => return none
    | .error _ => return none

def handle (a : Attempt) : Handler Response :=
  match a.query.request with
  | .create registry username secret => createCredential a registry username secret
  | .update id expected username secret => updateCredential a id expected username secret
  | .delete id expected => deleteCredential a id expected

/-- Run a program for what it does. -/
def discard {ε α : Type} (p : Prog Call Answer ε α) : Prog Call Answer Empty Unit := do
  let _ ← p.attempt
  return ()

def serve : Task → Prog Call Answer Empty Unit
  | .attempt a => discard (handle a)
  | .finalize => discard finalizeSucceededCredentialTombstones

/-- Finished records are collected, those of a tombstone apart. -/
inductive Change where
  | collect (picked : List Uuid)
  deriving DecidableEq, Repr

def Vault.change (w : Vault) : Change → Vault
  | .collect picked =>
    match w.tombstones with
    | .ok _ =>
      { w with
        ledger := w.ledger.collect (fun r => w.trash.any fun t => t.operation == r.operationId)
          fun op => picked.contains op }
    | .error _ => w

abbrev vaultWorld : World Call Answer Vault where
  Choice := Choice
  act := Vault.act

def credentialService : Service Call Answer Vault Arrival Task Change where
  world := vaultWorld
  receive
  serve
  boot := discard startup
  change := Vault.change

/-! ## A sample history

The first credential is created, and its deletion claimed. -/

def calm : vaultWorld.Script := fun _ e => smooth e

def sampleCreate : Query := ⟨"create-0000000001", .create "ghcr.io" "admin" "secret", 1⟩

def sampleDelete : Query := ⟨"delete-0000000001", .delete 0 0, 2⟩

def sampleHistory : List credentialService.Step :=
  [.receive (.request sampleCreate) calm, .serve 0 calm, .receive (.request sampleDelete) calm]

end SoloDock.Credentials
