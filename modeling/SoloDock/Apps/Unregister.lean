import SoloDock.Apps.Lifecycle

/-!
# Unregistration: tombstones, receipts, and what startup makes of them

A deletion moves the app's directory into the trash, records its response, and then, once
the response is durable, writes a receipt (`app_unregistrations`), removes the directory
for good and marks the receipt finalized. The API, the reconciler and startup share the
finalizer; startup first checks that every tombstone is owned by its record and that no
receipt contradicts the disk, and refuses to run otherwise.

These are `idempotency.rs` and `app_unregistration.rs`.
-/

namespace SoloDock.Apps

open Lib Mutation
open Lib.Prog (accept ask ensure)

/-- A part of the finalizer: it fails with an `IdempotencyError`, store errors included. -/
abbrev Finalizer := Prog Call Answer IdempotencyError

/-- Ask the store; its errors become the ledger's. -/
def fromStore {α : Type} (r : Except StoreError α) : Finalizer α :=
  Prog.orElse r fun _ => .database

/-- `Self::validate_app_tombstones`, for one tombstone: its record is open, or has succeeded
with the response that says so. -/
def ownedBy (app : Uuid) (row : Option RecordView) : Except IdempotencyError Bool :=
  Ledger.owned (Body.unregisters app) row

/-- The tombstones of the list whose deletions have succeeded. -/
def validateEach : List (Uuid × Uuid) → Finalizer (List (Uuid × Uuid))
  | [] => pure []
  | (app, operation) :: rest => do
    let row ← accept (← ask (Call.recordOf app operation))
    let succeeded ← accept (ownedBy app row)
    let rest ← validateEach rest
    return if succeeded then (app, operation) :: rest else rest

def validateAppTombstones : Finalizer (List (Uuid × Uuid)) := do
  let tombstones ← fromStore (← ask Call.tombstones)
  validateEach tombstones

/-- `pending`, for one receipt that is not finalized: the deletion's proof is still
there. -/
def provenBy (app : Uuid) (row : Option RecordView) : Bool :=
  Ledger.proven (Body.unregisters app) row

def pendingEach : List Receipt → Finalizer (List (Uuid × Uuid))
  | [] => pure []
  | receipt :: rest => do
    ensure (receipt.source == .deletion) .recordInvalid
    let row ← accept (← ask (Call.recordOf receipt.app receipt.operation))
    ensure (provenBy receipt.app row) .recordInvalid
    let rest ← pendingEach rest
    return (receipt.app, receipt.operation) :: rest

def pending : Finalizer (List (Uuid × Uuid)) := do
  let receipts ← accept (← ask Call.receipts)
  pendingEach (receipts.filter fun receipt => !receipt.finalized)

/-- `succeeded_app_tombstones`, without the sorting. -/
def succeededAppTombstones : Finalizer (List (Uuid × Uuid)) := do
  let succeeded ← validateAppTombstones
  let unfinished ← pending
  return (succeeded ++ unfinished).eraseDups

/-- `preserve_proof`: the receipt of a deletion whose record proves it. -/
def preserveProof (app operation : Uuid) : Finalizer Unit := do
  fromStore (← ask (Call.syncUnregisteredApp app))
  let row ← accept (← ask (Call.recordOf app operation))
  ensure (provenBy app row) .recordInvalid
  accept (← ask (Call.insertReceipt app operation))
  let receipt ← accept (← ask (Call.receiptOf app))
  ensure (receipt.any fun r => r.operation == operation && r.source == .deletion)
    .recordInvalid

def markFinalized (app operation : Uuid) : Finalizer Unit := do
  fromStore (← ask (Call.syncUnregisteredApp app))
  let tombstones ← fromStore (← ask Call.tombstones)
  ensure (!tombstones.any fun t => t.1 == app) .recordInvalid
  let changed ← accept (← ask (Call.markFinalized app operation))
  ensure (changed == 1) .recordInvalid

def syncTombstone (app operation : Uuid) : Finalizer Unit := do
  let _ ← fromStore (← ask (Call.readTombstoneMetadata app operation))
  fromStore (← ask (Call.syncUnregisteredApp app))

def finalizeTombstone (app operation : Uuid) : Finalizer Unit := do
  let _ ← fromStore (← ask (Call.readTombstoneMetadata app operation))
  fromStore (← ask (Call.removeTombstone app operation))

/-- The receipt is written before the last trace of the app is removed. -/
def clearTombstone (app operation : Uuid) (hasTombstone : Bool) : Finalizer Unit :=
  if hasTombstone then do
    syncTombstone app operation
    preserveProof app operation
    finalizeTombstone app operation
  else preserveProof app operation

def finalizeAppUnregistration (app operation : Uuid) : Finalizer Unit := do
  let succeeded ← succeededAppTombstones
  ensure (succeeded.contains (app, operation)) .recordInvalid
  let tombstones ← fromStore (← ask Call.tombstones)
  clearTombstone app operation (tombstones.contains (app, operation))
  markFinalized app operation

def finalizeEach : List (Uuid × Uuid) → Finalizer Unit
  | [] => pure ()
  | (app, operation) :: rest => do
    finalizeAppUnregistration app operation
    finalizeEach rest

def finalizeSucceededTombstones : Finalizer Unit := do
  finalizeEach (← succeededAppTombstones)

/-! ## Startup -/

/-- `backfill`, for one succeeded deletion. -/
def backfillEach (tombstoned : List Uuid) : List (Uuid × Uuid × Body) → Finalizer Unit
  | [] => pure ()
  | (app, operation, body) :: rest => do
    if !body.unregisters app || tombstoned.contains app then backfillEach tombstoned rest
    else
      preserveProof app operation
      markFinalized app operation
      backfillEach tombstoned rest

/-- `preserve_completed_unregistrations`, that is `backfill`. -/
def preserveCompletedUnregistrations : Finalizer Unit := do
  let tombstones ← fromStore (← ask Call.tombstones)
  let deletions ← accept (← ask Call.succeededDeletions)
  backfillEach (tombstones.map (·.1)) deletions

/-- `completed_apps`, for one receipt. -/
def completedEach (tombstones : List (Uuid × Uuid)) : List Receipt → Finalizer (List Uuid)
  | [] => pure []
  | receipt :: rest => do
    ensure (receipt.source != .operatorRepair false) .recordInvalid
    ensure (!(← ask (Call.appDirectoryExists receipt.app))) .recordInvalid
    ensure (!tombstones.any fun t => t.1 == receipt.app && t.2 != receipt.operation)
      .recordInvalid
    let rest ← completedEach tombstones rest
    return if receipt.finalized && !tombstones.any (fun t => t.1 == receipt.app) then
      receipt.app :: rest
    else rest

def completedApps : Finalizer (List Uuid) := do
  let tombstones ← fromStore (← ask Call.tombstones)
  let _ ← pending
  let receipts ← accept (← ask Call.receipts)
  completedEach tombstones receipts

def validateCompletedUnregistrations : Finalizer Unit := do
  let _ ← validateAppTombstones
  let _ ← completedApps

/-- What is left of earlier deletions is checked, listed for the poll states, and then
finished. -/
def resumeDeletions : Finalizer Unit := do
  preserveCompletedUnregistrations
  validateCompletedUnregistrations
  let _ ← succeededAppTombstones
  finalizeSucceededTombstones

/-- What `main` does about deletions before it listens; an error ends the process. -/
def startup : Finalizer Unit := do
  accept (← ask Call.interruptPending)
  resumeDeletions

end SoloDock.Apps
