import SoloDock.Apps.World
import SoloDock.Lib.Keyed

/-!
# Deletions that startup can finish

`Sound` is what startup asks of the trash, the receipts and the ledger: every tombstone
is readable and owned by its record, every receipt is proven or finalized, all that is
left of an app's deletion names one operation, and the app is not there. It is kept by
every call of the finalizer, whatever fails, as long as a recursive delete that stops
halfway leaves the two files a tombstone is recognised by; and when nothing fails, startup
accepts the state and finishes every deletion that has succeeded.

Both are proved in one pass over the programs: `Housekeeping b` is the condition on their
calls, with every call working if `b` holds, and each specification has a part that is
claimed only then.
-/

namespace SoloDock.Apps

open Lib Mutation

/-! ## Recursive deletes that stop halfway -/

/-- The tombstone after some of its entries were removed. -/
def Tombstone.after (t : Tombstone) (order : List Path) : Tombstone :=
  { t with tree := t.tree.removeAll order }

/-- Nothing is left of the directory, or both files are. -/
def Tombstone.survives (t : Tombstone) (order : List Path) : Bool :=
  (t.after order).tree.isEmpty ||
    (((t.after order).tree.get ["deletion.toml"]).isSome &&
      ((t.after order).tree.get ["app.toml"]).isSome)

theorem Tombstone.metadata_after {t : Tombstone} {m : Metadata} {order : List Path}
    (h : t.metadata = some m) (hmarker : ((t.after order).tree.get ["deletion.toml"]).isSome)
    (hfile : ((t.after order).tree.get ["app.toml"]).isSome) :
      (t.after order).metadata = some m := by
  have hkeep : ∀ p, ((t.after order).tree.get p).isSome → (t.after order).tree.get p =
    t.tree.get p := by
    intro p hp
    rcases FileTree.get_removeAll t.tree order p with heq | hnone
    · exact heq
    · have hnone : (t.after order).tree.get p = none := hnone
      rw [hnone] at hp
      cases hp
  unfold Tombstone.metadata at h ⊢
  rw [hkeep _ hmarker, hkeep _ hfile]
  exact h

theorem Tombstone.metadata_lost {t : Tombstone}
    (h : t.tree.get ["deletion.toml"] = none ∨ t.tree.get ["app.toml"] = none) :
    t.metadata = none := by
  unfold Tombstone.metadata
  rcases h with h | h
  · rw [h]
  · rw [h]
    split
    next heq => cases heq
    · rfl

/-! ## The invariant -/

/-- What a deletion of `app` by `operation` leaves: a tombstone, a receipt, or the record
that proves it. -/
inductive Deletes (w : Host) (app operation : Uuid) : Prop where
  | tombstone (t : Tombstone) (mem : t ∈ w.trash) (happ : t.app = app)
      (hop : t.operation = operation)
  | receipt (r : Receipt) (mem : r ∈ w.receipts) (happ : r.app = app)
      (hop : r.operation = operation)
  | record (h : provenBy app (w.recordOf app operation) = true)

structure Sound (w : Host) : Prop where
  readable : ∀ t ∈ w.trash, t.metadata.isSome
  owned : ∀ t ∈ w.trash, ∃ s, ownedBy t.app (w.recordOf t.app t.operation) = .ok s
  distinct : w.trash.Pairwise fun s t => s.app ≠ t.app
  /-- Receipts come from deletions, and are proven until they are finalized. -/
  source : ∀ r ∈ w.receipts, r.source = .deletion
  proven : ∀ r ∈ w.receipts, r.finalized = false → provenBy r.app (w.recordOf r.app r.operation)
  single : w.receipts.Pairwise fun r s => r.app ≠ s.app
  agree : ∀ app op op', Deletes w app op → Deletes w app op' → op = op'
  absent : ∀ app op, Deletes w app op → w.isLive app = false
  /-- A row is known by its operation. -/
  rows : w.ledger.Pairwise fun r s => r.operationId ≠ s.operationId

/-- Only the trash and the receipts differ. -/
def Kept (w w' : Host) : Prop := w' = { w with trash := w'.trash, receipts := w'.receipts }

namespace Kept

variable {w w' w'' : Host}

theorem refl (w : Host) : Kept w w := rfl

theorem trans (h : Kept w w') (h' : Kept w' w'') : Kept w w'' := by
  unfold Kept at h h' ⊢
  rw [h']

  rw [h]

theorem recordOf (h : Kept w w') (app op : Uuid) : w'.recordOf app op = w.recordOf app op := by
  rw [h]
  rfl

theorem isLive (h : Kept w w') (app : Uuid) : w'.isLive app = w.isLive app := by
  rw [h]
  rfl

end Kept

/-- What is left of deletions has only become less, or is what their records prove. -/
theorem Sound.frame {w w' : Host} (h : Sound w) (hkept : Kept w w')
    (htrash : ∀ t ∈ w'.trash, t.metadata.isSome ∧
      ∃ s ∈ w.trash, s.app = t.app ∧ s.operation = t.operation)
    (hdistinct : w'.trash.Pairwise fun s t => s.app ≠ t.app)
    (hreceipts : ∀ r ∈ w'.receipts, r.source = .deletion ∧ Deletes w r.app r.operation ∧
      (r.finalized = false → provenBy r.app (w.recordOf r.app r.operation)))
    (hsingle : w'.receipts.Pairwise fun r s => r.app ≠ s.app) : Sound w' := by
  have hdeletes : ∀ {app op}, Deletes w' app op → Deletes w app op := by
    rintro app op (⟨t, ht, rfl, rfl⟩ | ⟨r, hr, rfl, rfl⟩ | hproven)
    · obtain ⟨-, s, hs, happ, hop⟩ := htrash t ht
      exact .tombstone s hs happ hop
    · exact (hreceipts r hr).2.1
    · exact .record (hkept.recordOf app op ▸ hproven)
  exact {
    readable := fun t ht => (htrash t ht).1
    owned := fun t ht => by
      obtain ⟨-, s, hs, happ, hop⟩ := htrash t ht
      rw [hkept.recordOf, ← happ, ← hop]
      exact h.owned s hs
    distinct := hdistinct
    source := fun r hr => (hreceipts r hr).1
    proven := fun r hr hopen => by
      rw [hkept.recordOf]
      exact (hreceipts r hr).2.2 hopen
    single := hsingle
    agree := fun app op op' hd hd' => h.agree app op op' (hdeletes hd) (hdeletes hd')
    absent := fun app op hd => by
      rw [hkept.isLive]
      exact h.absent app op (hdeletes hd)
    rows := by
      rw [hkept]
      exact h.rows }

/-! ## What the finalizer's calls do -/

/-- A recursive delete that stops halfway leaves nothing, or the two files. -/
def intact (w : Host) : (e : Call) → Choice e → Bool
  | .removeTombstone app operation, .stopped order =>
    w.trash.all fun t => t.app != app || t.operation != operation || t.survives order
  | _, _ => true

/-- The call does what it is for. -/
def works : (e : Call) → Choice e → Bool
  | .interruptPending, o => o = .ok
  | .tombstones, readable => readable
  | .readTombstoneMetadata _ _, readable => readable
  | .syncUnregisteredApp _, o => o = .ok
  | .removeTombstone _ _, c => c = .removed true
  | .appDirectoryExists _, visible => visible
  | .recordOf _ _, readable => readable
  | .succeededDeletions, readable => readable
  | .receipts, readable => readable
  | .receiptOf _, readable => readable
  | .insertReceipt _ _, o => o = .ok
  | .markFinalized _ _, o => o = .ok
  | _, _ => true

def Housekeeping (b : Prop) (w : Host) (e : Call) (c : Choice e) : Prop :=
  intact w e c = true ∧ (b → works e c = true)

/-- A call that works does no damage. -/
theorem intact_of_works (w : Host) {e : Call} {c : Choice e} (h : works e c = true) :
    intact w e c = true := by
  cases e with
  | removeTombstone app op =>
    obtain rfl : c = .removed true := of_decide_eq_true h
    rfl
  | _ => rfl

end SoloDock.Apps
