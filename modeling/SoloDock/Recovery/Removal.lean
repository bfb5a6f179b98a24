import SoloDock.Apps.Finalize
import SoloDock.Registry.Recovered

/-!
# A recursive delete that is cut short

Removing a tombstone for good takes one removal per entry, in an order of the file
system's own, and the process may die after any of them. Does a restart find a state that
it accepts, and finish the removal?

It does when nothing is left of the directory, or when the files a tombstone is recognised
by are: `deletion.toml` and `app.toml` for an app, `deletion.toml` for a credential. In
every other case the directory is there and cannot be read as a tombstone, which stops
startup. Both directions hold of every sound state and every order of removals.
-/

namespace SoloDock.Apps

open Lib Mutation
open Lib.World

/-- A restart at `w` finds the tombstones, is accepted, and finishes the deletion, whatever
the environment picks as long as every call works. -/
def recovers (w : Host) (app op : Uuid) : Prop :=
  (∃ l, w.tombstones = .ok l) ∧
    ∀ o : appWorld.Script, (∀ n e, works e (o n e) = true) →
      (appWorld.exec o 0 startup w).1 = .ok () ∧ Finished (appWorld.exec o 0 startup w).2 app op

theorem recovers_of_sound {w : Host} {app op : Uuid} (hw : Sound w)
    (hproven : provenBy app (w.recordOf app op) = true) : recovers w app op := by
  refine ⟨⟨_, tombstones_ok hw⟩, fun o ho => ?_⟩
  have hmeets := meets_of_forall appWorld (G := Housekeeping True) (o := o)
    (fun n w e => ⟨intact_of_works w (ho n e), fun _ => ho n e⟩) 0 startup w
  obtain ⟨-, hresult⟩ := wp_exec o 0 (startup_spec (b := True) hw) hmeets
  exact ⟨(hresult trivial).1, (hresult trivial).2 app op hproven⟩

theorem mem_after {w : Host} {t : Tombstone} {order : List Path} (ht : t ∈ w.trash)
    (hleft : (t.after order).tree.isEmpty = false) :
    t.after order ∈ (w.removeTombstone t.app t.operation (.stopped order)).2.trash := by
  refine List.mem_filterMap.mpr ⟨t, ht, ?_⟩
  have hleft : (t.tree.removeAll order).isEmpty = false := hleft
  simp [hleft, Tombstone.after]

theorem recovers_iff_survives {w : Host} (hw : Sound w) {t : Tombstone} (ht : t ∈ w.trash)
    (hproven : provenBy t.app (w.recordOf t.app t.operation) = true) (order : List Path) :
    recovers (w.removeTombstone t.app t.operation (.stopped order)).2 t.app t.operation ↔
      t.survives order = true := by
  constructor
  · rintro ⟨⟨l, hl⟩, -⟩
    cases hleft : (t.after order).tree.isEmpty with
    | true => simp [Tombstone.survives, hleft]
    | false =>
      -- What is left of the directory was read as a tombstone, so both files are there.
      unfold Host.tombstones at hl
      split at hl
      next hall =>
        have hread := List.all_eq_true.mp hall _ (mem_after ht hleft)
        simp only [Tombstone.survives, hleft, Bool.false_or, Bool.and_eq_true]
        refine ⟨Decidable.byContradiction fun h => ?_, Decidable.byContradiction fun h => ?_⟩
        · rw [Tombstone.metadata_lost (.inl (by simpa using h))] at hread
          cases hread
        · rw [Tombstone.metadata_lost (.inr (by simpa using h))] at hread
          cases hread
      · cases hl
  · intro hsurvives
    refine recovers_of_sound (removeTombstone_sound hw ?_) ?_
    · refine List.all_eq_true.mpr fun s hs => ?_
      by_cases happ : s.app = t.app
      · rw [eq_of_key_eq hw.distinct hs ht happ]
        simp [hsurvives]
      · simp [happ]
    · rw [(removeTombstone_kept w t.app t.operation _).recordOf]
      exact hproven

end SoloDock.Apps

namespace SoloDock.Credentials

open Lib Mutation
open Lib.World

/-- A restart at `w` finds the tombstones, is accepted, and finishes the deletion, whatever
the environment picks as long as every call works. -/
def recovers (w : Vault) (id op : Uuid) : Prop :=
  (∃ l, w.tombstones = .ok l) ∧
    ∀ o : vaultWorld.Script, (∀ n e, works e (o n e) = true) →
      (vaultWorld.exec o 0 startup w).1 = .ok () ∧
        Finished (vaultWorld.exec o 0 startup w).2 id op

/-- The tombstone after some of its entries were removed. -/
def Tombstone.after (t : Tombstone) (order : List Path) : Tombstone :=
  { t with tree := t.tree.removeAll order }

/-- Nothing is left of the directory, or the marker is. -/
def Tombstone.survives (t : Tombstone) (order : List Path) : Bool :=
  (t.after order).tree.isEmpty || ((t.after order).tree.get ["deletion.toml"]).isSome

variable {w : Vault} {t : Tombstone} {order : List Path}

theorem recovers_of_sound {id op : Uuid} (hw : Sound w) (hproven : Proven w id op) :
    recovers w id op := by
  refine ⟨⟨_, tombstones_ok hw.exact⟩, fun o ho => ?_⟩
  have hmeets := meets_of_forall vaultWorld (G := Working) (o := o)
    (fun n _ e => ho n e) 0 startup w
  obtain ⟨hok, hfinished⟩ := wp_exec o 0 (startup_spec hw) hmeets
  exact ⟨hok, hfinished id op hproven⟩

theorem leftover_eq {id op : Uuid} {s s' : Tombstone}
    (h : Vault.leftover id op order s = some s') : (s' = s ∧ ¬(s.id = id ∧ s.operation = op)) ∨
      (s' = s.after order ∧ s'.tree.isEmpty = false ∧ s.id = id ∧ s.operation = op) := by
  unfold Vault.leftover at h
  split at h
  next hat =>
    split at h
    · cases h
    next hleft =>
      cases h
      exact .inr ⟨rfl, by simpa using hleft, hat⟩
  next hat =>
    cases h
    exact .inl ⟨rfl, hat⟩

theorem sound_of_survives (hw : Sound w) (ht : t ∈ w.trash) (hsurvives : t.survives order = true) :
    Sound (w.removeTombstone t.id t.operation (.stopped order)).2 where
  exact s hs := by
    obtain ⟨s', hs', heq⟩ := List.mem_filterMap.mp hs
    rcases leftover_eq heq with ⟨rfl, -⟩ | ⟨rfl, hleft, hid, hop⟩
    · exact hw.exact s hs'
    · obtain rfl : s' = t := eq_of_key_eq hw.distinct hs' ht (by rw [hid, hop])
      simp only [Tombstone.survives, hleft, Bool.false_or] at hsurvives
      rcases FileTree.get_removeAll s'.tree order ["deletion.toml"] with hkeep | hnone
      · have hexact := hw.exact s' hs'
        simp only [Tombstone.exact, Tombstone.after, hkeep] at hexact ⊢
        exact hexact
      · have hnone : (s'.after order).tree.get ["deletion.toml"] = none := hnone
        rw [hnone] at hsurvives
        cases hsurvives
  owned s hs := by
    obtain ⟨s', hs', heq⟩ := List.mem_filterMap.mp hs
    rcases leftover_eq heq with ⟨rfl, -⟩ | ⟨rfl, -⟩
    · exact hw.owned s hs'
    · exact hw.owned s' hs'
  distinct := by
    refine List.pairwise_filterMap.mpr (hw.distinct.imp fun {s s'} hne u hu u' hu' => ?_)
    have hname : ∀ {s u : Tombstone}, Vault.leftover t.id t.operation order s = some u →
        u.id = s.id ∧ u.operation = s.operation := by
      intro s u h
      rcases leftover_eq h with ⟨rfl, -⟩ | ⟨rfl, -⟩ <;> exact ⟨rfl, rfl⟩
    rw [(hname hu).1, (hname hu).2, (hname hu').1, (hname hu').2]
    exact hne
  few := hw.few
  loadable := hw.loadable

theorem recovers_iff_survives (hw : Sound w) (ht : t ∈ w.trash)
    (hproven : Proven w t.id t.operation) (order : List Path) :
    recovers (w.removeTombstone t.id t.operation (.stopped order)).2 t.id t.operation ↔
      t.survives order = true := by
  constructor
  · rintro ⟨⟨l, hl⟩, -⟩
    cases hleft : (t.after order).tree.isEmpty with
    | true => simp [Tombstone.survives, hleft]
    | false =>
      have hmem : t.after order ∈ (w.removeTombstone t.id t.operation
        (.stopped order)).2.trash := by
        refine List.mem_filterMap.mpr ⟨t, ht, ?_⟩
        have hleft : (t.tree.removeAll order).isEmpty = false := hleft
        simp [Vault.leftover, hleft, Tombstone.after]
      unfold Vault.tombstones at hl
      split at hl
      next hall =>
        have hread := List.all_eq_true.mp hall _ hmem
        simp only [Tombstone.exact, beq_iff_eq] at hread
        simp [Tombstone.survives, hread]
      · cases hl
  · intro hsurvives
    exact recovers_of_sound (sound_of_survives hw ht hsurvives) hproven

end SoloDock.Credentials

namespace SoloDock.Recovery

open Lib Mutation

/-- A cut removal is recovered from exactly when nothing is left of the tombstone or its
own files are. -/
theorem removal_recovers_iff_survives (order : List Path) :
    (∀ (w : Apps.Host) (t : Apps.Tombstone), Apps.Sound w → t ∈ w.trash →
      Apps.provenBy t.app (w.recordOf t.app t.operation) = true →
      (Apps.recovers (w.removeTombstone t.app t.operation (.stopped order)).2 t.app t.operation ↔
        t.survives order = true)) ∧
    (∀ (w : Credentials.Vault) (t : Credentials.Tombstone),
      Credentials.Sound w → t ∈ w.trash → Credentials.Proven w t.id t.operation →
      (Credentials.recovers (w.removeTombstone t.id t.operation (.stopped order)).2 t.id
          t.operation ↔
        t.survives order = true)) :=
  ⟨fun _ _ hw ht hproven => Apps.recovers_iff_survives hw ht hproven order,
    fun _ _ hw ht hproven => Credentials.recovers_iff_survives hw ht hproven order⟩

/-- The tombstone of the first app. -/
def sampleTombstone : Apps.Tombstone :=
  ⟨0, 1, Apps.Host.tombstoneTree 0 1
    (Apps.Host.withMark 1 0 (Apps.Host.newMetadata "app" 0 none 0)) []⟩

/-- Its deletion is recorded, and its removal is about to begin. -/
def sampleApps : Apps.Host :=
  { Apps.Host.empty with
    ledger := [⟨.app 0, "delete-0000000001", .delete 0 "token" "app" none false, 1, .succeeded,
      some (200, .deleted ⟨0, true, false, [], true, none⟩), none, none⟩]
    trash := [sampleTombstone]
    receipts := [⟨0, 1, .deletion, false⟩]
    next := 2 }

theorem deletes_sampleApps {app op : Uuid} (h : Apps.Deletes sampleApps app op) :
    app = 0 ∧ op = 1 := by
  rcases h with ⟨t, ht, rfl, rfl⟩ | ⟨r, hr, rfl, rfl⟩ | hproven
  · cases List.mem_singleton.mp ht
    exact ⟨rfl, rfl⟩
  · cases List.mem_singleton.mp hr
    exact ⟨rfl, rfl⟩
  · obtain ⟨body, hmem, -⟩ := Apps.succeeded_of_proven hproven
    cases List.mem_singleton.mp hmem
    exact ⟨rfl, rfl⟩

theorem sound_sampleApps : Apps.Sound sampleApps where
  readable := by decide
  owned t ht := by
    cases List.mem_singleton.mp ht
    exact ⟨true, rfl⟩
  distinct := List.pairwise_singleton _ _
  source := by decide
  proven := by decide
  single := List.pairwise_singleton _ _
  agree _ _ _ h h' := (deletes_sampleApps h).2.trans (deletes_sampleApps h').2.symm
  absent _ _ _ := rfl
  rows := List.pairwise_singleton _ _

def sampleCredentialTombstone : Credentials.Tombstone :=
  ⟨0, 1, Credentials.Vault.tombstoneTree 0 1 [(["credential.toml"], .file)]⟩

def sampleVault : Credentials.Vault :=
  { Credentials.Vault.empty with
    ledger := [⟨.credential 0, "delete-0000000001", .delete 0 0, 1, .succeeded,
      some (200, .deleted 0 true), none, none⟩]
    trash := [sampleCredentialTombstone]
    next := 2 }

theorem sound_sampleVault : Credentials.Sound sampleVault where
  exact := by decide
  owned t ht := by
    cases List.mem_singleton.mp ht
    exact ⟨true, rfl⟩
  distinct := List.pairwise_singleton _ _
  few := by decide
  loadable := nofun

/-- Before the first removal a restart finishes the deletion; once the marker is gone and
the rest is not, it never does. -/
theorem recovers_before_marker_removed :
    (Apps.recovers (sampleApps.removeTombstone 0 1 (.stopped [])).2 0 1 ∧
      ¬Apps.recovers (sampleApps.removeTombstone 0 1 (.stopped [["deletion.toml"]])).2 0 1) ∧
    Credentials.recovers (sampleVault.removeTombstone 0 1 (.stopped [["credential.toml"]])).2 0 1 ∧
      ¬Credentials.recovers (sampleVault.removeTombstone 0 1
        (.stopped [["deletion.toml"]])).2 0 1 := by
  have happ := fun order => (removal_recovers_iff_survives order).1 sampleApps sampleTombstone
    sound_sampleApps (List.mem_singleton.mpr rfl) (by decide)
  have hcredential := fun order => (removal_recovers_iff_survives order).2 sampleVault
    sampleCredentialTombstone sound_sampleVault (List.mem_singleton.mpr rfl)
    (show Ledger.proven (Credentials.Body.deletes 0) (sampleVault.recordOf 0 1) = true by decide)
  exact ⟨⟨(happ []).mpr (by decide), fun h => absurd ((happ _).mp h) (by decide)⟩,
    (hcredential _).mpr (by decide), fun h => absurd ((hcredential _).mp h) (by decide)⟩

/-! ## The marker goes first -/

/-- The removal of the first app's tombstone gets as far as its marker. -/
def tornApp : Apps.appWorld.Script := fun _ e =>
  match e with
  | .removeTombstone _ _ => .stopped [["deletion.toml"]]
  | e => Apps.smooth e

/-- The deletion of the first app has succeeded, and its removal was cut. -/
def tornApps : Apps.Host :=
  (play Apps.appService.step ⟨.empty, []⟩ (Apps.sampleHistory ++ [.serve 0 tornApp])).world

def tornCredential : Credentials.vaultWorld.Script := fun _ e =>
  match e with
  | .removeTombstone _ _ => .stopped [["deletion.toml"]]
  | e => Credentials.smooth e

/-- The same for the first credential. -/
def tornVault : Credentials.Vault :=
  (play Credentials.credentialService.step ⟨.empty, []⟩
    (Credentials.sampleHistory ++ [.serve 0 tornCredential])).world

/-- Both deletions have succeeded, and startup refuses what is left of them. -/
theorem marker_removed_first_refuses_startup :
    (Apps.provenBy 0 (tornApps.recordOf 0 1) = true ∧ tornApps.hasTombstone 0 1 = true ∧
      (Apps.appWorld.exec Apps.calm 0 Apps.startup tornApps).1.isOk = false ∧
      ¬Apps.recovers tornApps 0 1) ∧
    Credentials.Proven tornVault 0 1 ∧ tornVault.hasTombstone 0 1 = true ∧
      (Credentials.vaultWorld.exec Credentials.calm 0 Credentials.startup tornVault).1.isOk =
        false ∧
      ¬Credentials.recovers tornVault 0 1 := by
  have happ : tornApps.tombstones.isOk = false := by decide +kernel
  have hcredential : tornVault.tombstones.isOk = false := by decide +kernel
  have hproven : Ledger.proven (Credentials.Body.deletes 0) (tornVault.recordOf 0 1) = true := by
    decide +kernel
  refine ⟨⟨by decide +kernel, by decide +kernel, by decide +kernel, ?_⟩,
    hproven, by decide +kernel, by decide +kernel, ?_⟩
  · rintro ⟨⟨l, hl⟩, -⟩
    rw [hl] at happ
    cases happ
  · rintro ⟨⟨l, hl⟩, -⟩
    rw [hl] at hcredential
    cases hcredential

end SoloDock.Recovery
