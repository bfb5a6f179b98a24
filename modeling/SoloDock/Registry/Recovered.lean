import SoloDock.Registry.Vault

/-!
# Credential deletions that startup can finish

`Sound` is what startup asks of the credential store, and `startup_spec` says that, when
every call works, startup accepts a sound store and removes the tombstone of every deletion
that has succeeded.
-/

namespace SoloDock.Credentials

open Lib Mutation
open Lib.World

/-- The deletion has succeeded, and its record says so. -/
def Proven (w : Vault) (id op : Uuid) : Prop :=
  Ledger.proven (Body.deletes id) (w.recordOf id op) = true

structure Sound (w : Vault) : Prop where
  exact : ∀ t ∈ w.trash, t.exact = true
  owned : ∀ t ∈ w.trash, ∃ s, ownedBy t.id (w.recordOf t.id t.operation) = .ok s
  distinct : w.trash.Pairwise fun s t => (s.id, s.operation) ≠ (t.id, t.operation)
  few : w.live.length ≤ 32
  loadable : ∀ c ∈ w.live, ∃ loaded, w.load c.metadata.id = .ok loaded

/-- The call does what it is for. -/
def works : (e : Call) → Choice e → Bool
  | .interruptPending, o => o = .ok
  | .recordOf _ _, readable => readable
  | .list, failure => failure = none
  | .load _, failure => failure = none
  | .exactTombstone _ _, failure => failure = none
  | .tombstones, failure => failure = none
  | .removeTombstone _ _, c => c = .removed
  | .syncTrash, o => o = .ok
  | .cleanRevisions, failure => failure = none
  | _, _ => true

/-- The condition under which startup is looked at. -/
abbrev Working (_ : Vault) (e : Call) (c : Choice e) : Prop := works e c = true

variable {w : Vault}

theorem tombstones_ok (h : ∀ t ∈ w.trash, t.exact = true) :
    w.tombstones = .ok (w.trash.map fun t => (t.id, t.operation)) :=
  if_pos (List.all_eq_true.mpr h)

/-- The trash without one tombstone, everything else as it was. -/
def Vault.without (w : Vault) (id op : Uuid) : Vault :=
  { w with trash := w.trash.filter fun t => !(t.id == id && t.operation == op) }

variable {id op : Uuid}

theorem mem_without {t : Tombstone} :
    t ∈ (w.without id op).trash ↔ t ∈ w.trash ∧ ¬(t.id = id ∧ t.operation = op) := by
  simp [Vault.without, Decidable.imp_iff_not_or]

theorem without_absent (h : w.hasTombstone id op = false) : w.without id op = w := by
  have hall : w.trash.filter (fun t => !(t.id == id && t.operation == op)) = w.trash := by
    refine List.filter_eq_self.mpr fun t ht => ?_
    have hne := List.any_eq_false.mp h t ht
    simpa only [Bool.not_eq_true', Bool.not_eq_true] using hne
  unfold Vault.without
  rw [hall]

/-- With a working store the program ends in `Q`. -/
abbrev Works {ε α : Type} (p : Prog Call Answer ε α) (Q : Except ε α → Vault → Prop) (w : Vault) :
    Prop :=
  vaultWorld.wp Working (fun _ => True) p Q w

theorem finalizeTombstone_spec (h : ∀ t ∈ w.trash, t.exact = true) :
    Works (finalizeTombstone id op) (fun r w' => r = .ok () ∧ w' = w.without id op) w := by
  have hsync : ∀ w' : Vault, Works (Prog.ask Call.syncTrash >>= fun r => Prog.accept r : Store Unit)
      (fun r w'' => r = .ok () ∧ w'' = w') w' := by
    intro w'
    refine wp_call fun o ho => ⟨trivial, ?_⟩
    obtain rfl : o = .ok := of_decide_eq_true ho
    exact ⟨rfl, rfl⟩
  refine wp_call fun failure hf => ⟨trivial, ?_⟩
  obtain rfl : failure = none := of_decide_eq_true hf
  show Works (Prog.accept (w.exactTombstone id op) >>= _) _ w
  unfold Vault.exactTombstone
  split
  next hnone =>
    -- The tombstone is gone already; only the trash is synced.
    have habsent : w.hasTombstone id op = false := by
      rw [Vault.hasTombstone, List.any_eq_false]
      exact fun t ht => by simpa using List.find?_eq_none.mp hnone t ht
    rw [without_absent habsent]
    exact hsync w
  next t hfind =>
    rw [if_pos (h t (List.mem_of_find?_eq_some hfind))]
    refine wp_call fun c hc => ⟨trivial, ?_⟩
    obtain rfl : c = .removed := of_decide_eq_true hc
    exact hsync (w.without id op)

theorem fromStore_spec {p : Store α} {a : α} {P : Vault → Prop}
    (hp : Works p (fun r w' => r = .ok a ∧ P w') w) :
    Works (fromStore p) (fun r w' => r = .ok a ∧ P w') w := by
  unfold fromStore
  simp only [wp_bind, wp_attempt]
  refine wp_mono hp ?_
  rintro r w' ⟨rfl, hw'⟩
  exact ⟨rfl, hw'⟩

theorem wp_fromStore {p : Store α} {k : α → Finalizer β} {a : α}
    {Q : Except IdempotencyError β → Vault → Prop} {P : Vault → Prop}
    (hp : Works p (fun r w' => r = .ok a ∧ P w') w) (hk : ∀ w', P w' → Works (k a) Q w') :
    Works (fromStore p >>= k) Q w := by
  simp only [wp_bind]
  refine wp_mono (fromStore_spec hp) ?_
  rintro r w' ⟨rfl, hw'⟩
  exact hk w' hw'

theorem finalizeEach_spec :
    ∀ {w : Vault} (l : List (Uuid × Uuid)), (∀ t ∈ w.trash, t.exact = true) →
    (∀ x ∈ l, ∃ s, ownedBy x.1 (w.recordOf x.1 x.2) = .ok s) →
    Works (finalizeEach l)
      (fun r w' => r = .ok () ∧ w'.ledger = w.ledger ∧ w'.live = w.live ∧
        ∀ t ∈ w'.trash, t ∈ w.trash ∧ ∀ x ∈ l, Proven w x.1 x.2 →
          ¬(t.id = x.1 ∧ t.operation = x.2)) w
  | _, [], _, _ => ⟨rfl, rfl, rfl, fun _ ht => ⟨ht, nofun⟩⟩
  | w, (id, op) :: rest, hexact, howned => by
    have hrest : ∀ x ∈ rest, ∃ s, ownedBy x.1 (w.recordOf x.1 x.2) = .ok s :=
      fun x hx => howned x (List.mem_cons_of_mem _ hx)
    refine wp_call fun readable hr => ⟨trivial, ?_⟩
    obtain rfl : readable = true := hr
    obtain ⟨s, hs⟩ := howned _ List.mem_cons_self
    show Works (Prog.accept (ownedBy id (w.recordOf id op)) >>= _) _ w
    rw [hs]
    cases s with
    | false =>
      have hopen : ¬Proven w id op := fun h => by
        cases (Ledger.owned_ok_true.mpr h).symm.trans hs
      refine wp_mono (finalizeEach_spec rest hexact hrest) ?_
      rintro r w' ⟨rfl, hledger, hlive, hgone⟩
      refine ⟨rfl, hledger, hlive, fun t ht => ⟨(hgone t ht).1, fun x hx hproven => ?_⟩⟩
      rcases List.mem_cons.mp hx with rfl | hx
      · exact absurd hproven hopen
      · exact (hgone t ht).2 x hx hproven
    | true =>
      refine wp_fromStore (P := fun w' => w' = w.without id op) (finalizeTombstone_spec hexact) ?_
      rintro w' rfl
      refine wp_mono (finalizeEach_spec rest (fun t ht => hexact t (mem_without.mp ht).1) hrest) ?_
      rintro r w' ⟨rfl, hledger, hlive, hgone⟩
      refine ⟨rfl, hledger, hlive, fun t ht => ?_⟩
      obtain ⟨hmem, hnot⟩ := hgone t ht
      refine ⟨(mem_without.mp hmem).1, fun x hx hproven => ?_⟩
      rcases List.mem_cons.mp hx with rfl | hx
      · exact (mem_without.mp hmem).2
      · exact hnot x hx hproven

/-- `interrupt_pending` on the whole store. -/
def Vault.interrupt (w : Vault) : Vault := { w with ledger := w.ledger.interruptPending }

theorem owned_interrupt (id op : Uuid) :
    ownedBy id (w.interrupt.recordOf id op) = ownedBy id (w.recordOf id op) := by
  unfold ownedBy Vault.recordOf
  rw [show w.interrupt.ledger = w.ledger.interruptPending from rfl, Ledger.view_interruptPending,
    Ledger.owned_interrupt]

theorem proven_interrupt (id op : Uuid) : Proven w.interrupt id op ↔ Proven w id op := by
  unfold Proven Vault.recordOf
  rw [show w.interrupt.ledger = w.ledger.interruptPending from rfl, Ledger.view_interruptPending,
    Ledger.proven_interrupt]

/-- The tombstone is gone, and the record of the deletion says that it was made. -/
structure Finished (w : Vault) (id op : Uuid) : Prop where
  cleared : w.hasTombstone id op = false
  recorded : Proven w id op

theorem loadEach_spec : ∀ l : List CredentialMetadata,
    (∀ m ∈ l, ∃ loaded, w.load m.id = .ok loaded) →
    Works (loadEach l) (fun r w' => r = .ok () ∧ w' = w) w
  | [], _ => ⟨rfl, rfl⟩
  | metadata :: rest, hload => by
    refine wp_call fun failure hf => ⟨trivial, ?_⟩
    obtain rfl : failure = none := of_decide_eq_true hf
    obtain ⟨loaded, hloaded⟩ := hload metadata List.mem_cons_self
    show Works (Prog.accept (w.load metadata.id) >>= _) _ w
    rw [hloaded]
    exact loadEach_spec rest fun m hm => hload m (List.mem_cons_of_mem _ hm)

/-- Startup accepts a sound store and finishes every deletion that has succeeded. -/
theorem startup_spec (hw : Sound w) :
    Works startup (fun r w' => r = .ok () ∧ ∀ id op, Proven w id op → Finished w' id op) w := by
  refine wp_call fun o ho => ⟨trivial, ?_⟩
  obtain rfl : o = .ok := of_decide_eq_true ho
  have htombs : w.interrupt.tombstones = .ok (w.trash.map fun t => (t.id, t.operation)) :=
    tombstones_ok hw.exact
  refine wp_fromStore (a := ()) (P := fun w' => w' = w.interrupt) ?_ ?_
  · refine wp_call fun failure hf => ⟨trivial, ?_⟩
    obtain rfl : failure = none := of_decide_eq_true hf
    show Works (Prog.accept w.interrupt.tombstones >>= _) _ w.interrupt
    rw [htombs]
    refine wp_call fun failure hf => ⟨trivial, ?_⟩
    obtain rfl : failure = none := of_decide_eq_true hf
    exact ⟨rfl, rfl⟩
  rintro _ rfl
  refine wp_part (P := fun r w' => r = .ok () ∧ w'.ledger = w.interrupt.ledger ∧ w'.live = w.live ∧
    ∀ id op, Proven w id op → w'.hasTombstone id op = false) ?_ ?_ ?_
  · refine wp_fromStore (a := w.trash.map fun t => (t.id, t.operation))
      (P := fun w' => w' = w.interrupt) ?_ ?_
    · refine wp_call fun failure hf => ⟨trivial, ?_⟩
      obtain rfl : failure = none := of_decide_eq_true hf
      show Works (Prog.accept w.interrupt.tombstones) _ w.interrupt
      rw [htombs]
      exact ⟨rfl, rfl⟩
    rintro _ rfl
    refine wp_mono (finalizeEach_spec _ hw.exact fun x hx => ?_) ?_
    · obtain ⟨t, ht, rfl⟩ := List.mem_map.mp hx
      rw [owned_interrupt]
      exact hw.owned t ht
    · rintro r w' ⟨rfl, hledger, hlive, hgone⟩
      refine ⟨rfl, hledger, hlive, fun id op hproven => ?_⟩
      rw [Vault.hasTombstone, List.any_eq_false]
      intro t ht heq
      simp only [Bool.and_eq_true, beq_iff_eq] at heq
      obtain ⟨hmem, hnot⟩ := hgone t ht
      exact hnot (id, op) (List.mem_map.mpr ⟨t, hmem, by rw [heq.1, heq.2]⟩)
        ((proven_interrupt id op).mpr hproven) heq
  · rintro _ w' ⟨-, hledger, hlive, hgone⟩
    have hload : ∀ m ∈ w'.live.map (·.metadata), ∃ loaded, w'.load m.id = .ok loaded := by
      intro m hm
      obtain ⟨c, hc, rfl⟩ := List.mem_map.mp hm
      unfold Vault.load Vault.find
      rw [hlive] at hc ⊢
      exact hw.loadable c hc
    refine wp_fromStore (a := w'.live.map (·.metadata)) (P := fun w'' => w'' = w') ?_ ?_
    · refine wp_call fun failure hf => ⟨trivial, ?_⟩
      obtain rfl : failure = none := of_decide_eq_true hf
      have hlist : w'.list = .ok (w'.live.map (·.metadata)) :=
        if_neg (by rw [hlive]; exact Nat.not_lt.mpr hw.few)
      show Works (Prog.accept w'.list) _ w'
      rw [hlist]
      exact ⟨rfl, rfl⟩
    rintro _ rfl
    refine wp_mono (fromStore_spec (loadEach_spec _ hload)) ?_
    rintro _ _ ⟨rfl, rfl⟩
    refine ⟨rfl, fun id op hproven => ⟨hgone id op hproven, ?_⟩⟩
    unfold Proven Vault.recordOf
    rw [hledger]
    exact (proven_interrupt id op).mpr hproven
  · rintro err w' ⟨h, -⟩
    cases h

end SoloDock.Credentials
