import SoloDock.Apps.Sound

/-!
# The finalizer keeps what startup needs, and finishes what it can

A specification for each program of the unregistration module, from its calls up to
`startup`. `Settles b w₀ P` is their postcondition: the state is sound, nothing but trash
and receipts differs from `w₀`, `P` holds of a result, and there is no error when every
call works. The crash condition is the same without the result, so each of these programs
may be cut anywhere.
-/

namespace SoloDock.Apps

open Lib Mutation
open Lib.World
open List (any_eq_true mem_cons mem_cons_of_mem mem_cons_self mem_filter mem_filterMap mem_map)
open Bool (and_eq_true)
open Host (finalizes)

/-- Sound, and as `w₀` but for trash and receipts, which tell of no other deletions. -/
structure Fine (w₀ w : Host) : Prop where
  sound : Sound w
  kept : Kept w₀ w
  fewer : ∀ app op, Deletes w app op → Deletes w₀ app op

theorem Fine.refl {w : Host} (h : Sound w) : Fine w w := ⟨h, .refl w, fun _ _ hd => hd⟩

def Settles {α : Type} (b : Prop) (w₀ : Host) (P : α → Host → Prop) :
    Except IdempotencyError α → Host → Prop
  | .ok a, w => Fine w₀ w ∧ P a w
  | .error _, w => Fine w₀ w ∧ ¬b

abbrev Settling {α : Type} (b : Prop) (w₀ : Host) (p : Finalizer α) (P : α → Host → Prop)
    (w : Host) : Prop :=
  appWorld.wp (Housekeeping b) (Fine w₀) p (Settles b w₀ P) w

section Rules

variable {b : Prop} {w₀ w : Host} {α β : Type} {P : α → Host → Prop} {Q : β → Host → Prop}

theorem wp_settles {p : Finalizer α} {k : α → Finalizer β} (hp : Settling b w₀ p P w)
    (hk : ∀ a w', Fine w₀ w' → P a w' → Settling b w₀ (k a) Q w') : Settling b w₀ (p >>= k) Q w :=
  wp_part hp (fun a w' h => hk a w' h.1 h.2) fun _ _ h => h

theorem settles_mono {p : Finalizer α} {P' : α → Host → Prop} (hp : Settling b w₀ p P w)
    (h : ∀ a w', P a w' → P' a w') : Settling b w₀ p P' w :=
  wp_mono hp fun r w' hr => by
    cases r with
    | ok a => exact ⟨hr.1, h a w' hr.2⟩
    | error err => exact hr

theorem tombstones_ok (h : Sound w) :
    w.tombstones = .ok (w.trash.map fun t => (t.app, t.operation)) :=
  if_pos (List.all_eq_true.mpr h.readable)

theorem wp_tombstones {k : List (Uuid × Uuid) → Finalizer β} (hw : Fine w₀ w)
    (hk : Settling b w₀ (k (w.trash.map fun t => (t.app, t.operation))) Q w) :
    Settling b w₀ (Prog.ask Call.tombstones >>= fun r => fromStore r >>= k) Q w := by
  refine wp_look rfl hw fun readable hc => ?_
  cases readable with
  | true =>
    refine wp_orElse_bind (fun l hl => ?_) fun err herr => ?_
    · cases (tombstones_ok hw.sound).symm.trans hl
      exact hk
    · cases (tombstones_ok hw.sound).symm.trans herr
  | false => exact ⟨hw, fun hb => nomatch hc.2 hb⟩

theorem wp_recordOf {app op : Uuid} {k : Option RecordView → Finalizer β} (hw : Fine w₀ w)
    (hk : Settling b w₀ (k (w.recordOf app op)) Q w) :
    Settling b w₀ (Prog.ask (Call.recordOf app op) >>= fun r => Prog.accept r >>= k) Q w := by
  refine wp_look rfl hw fun readable hc => ?_
  cases readable with
  | true => exact hk
  | false => exact ⟨hw, fun hb => nomatch hc.2 hb⟩

theorem wp_receipts {k : List Receipt → Finalizer β} (hw : Fine w₀ w)
    (hk : Settling b w₀ (k w.receipts) Q w) :
    Settling b w₀ (Prog.ask Call.receipts >>= fun r => Prog.accept r >>= k) Q w := by
  refine wp_look rfl hw fun readable hc => ?_
  cases readable with
  | true => exact hk
  | false => exact ⟨hw, fun hb => nomatch hc.2 hb⟩

theorem wp_syncUnregisteredApp {app : Uuid} {k : Unit → Finalizer β} (hw : Fine w₀ w)
    (hlive : b → w.isLive app = false) (hk : Settling b w₀ (k ()) Q w) :
    Settling b w₀ (Prog.ask (Call.syncUnregisteredApp app) >>= fun r => fromStore r >>= k) Q w := by
  refine wp_look rfl hw fun o hc => ?_
  refine wp_orElse_bind (fun _ _ => hk) fun err herr => ⟨hw, fun hb => ?_⟩
  have herr : w.syncUnregisteredApp app o = .error err := herr
  have ho : o = .ok := by simpa [works] using hc.2 hb
  simp [Host.syncUnregisteredApp, hlive hb, ho, Outcome.result] at herr

theorem wp_check {c : Bool} {err : IdempotencyError} {k : Unit → Finalizer β} (hw : Fine w₀ w)
    (hc : b → c = true) (hk : c = true → Settling b w₀ (k ()) Q w) :
    Settling b w₀ (Prog.ensure c err >>= k) Q w :=
  wp_ensure_bind hk fun hfalse => ⟨hw, fun hb => by rw [hc hb] at hfalse; cases hfalse⟩

end Rules

section Programs

variable {b : Prop} {w₀ w : Host}

/-! ## What is left to do -/

theorem validateEach_spec (hw : Fine w₀ w) : ∀ l : List (Uuid × Uuid),
    (∀ x ∈ l, ∃ s, ownedBy x.1 (w.recordOf x.1 x.2) = .ok s) → Settling b w₀ (validateEach l)
      (fun res w' => w' = w ∧ ∀ x, x ∈ res ↔ x ∈ l ∧ provenBy x.1 (w.recordOf x.1 x.2) = true) w
  | [], _ => ⟨hw, rfl, fun x => by simp⟩
  | (app, op) :: rest, howned => by
    refine wp_recordOf hw ?_
    obtain ⟨s, hs⟩ := howned _ mem_cons_self
    refine wp_accept_bind (fun succeeded hok => ?_) fun err herr => ?_
    · refine wp_settles (validateEach_spec hw rest fun x hx => howned x (mem_cons_of_mem _ hx)) ?_
      rintro res w' hw' ⟨rfl, hres⟩
      refine ⟨hw', rfl, fun x => ?_⟩
      cases succeeded with
      | true =>
        have hproven := Ledger.owned_ok_true.mp hok
        simp only [if_true, mem_cons, hres]
        constructor
        · rintro (rfl | ⟨hx, hp⟩)
          · exact ⟨.inl rfl, hproven⟩
          · exact ⟨.inr hx, hp⟩
        · rintro ⟨rfl | hx, hp⟩
          · exact .inl rfl
          · exact .inr ⟨hx, hp⟩
      | false =>
        have hopen : ¬provenBy app (w'.recordOf app op) = true := fun h => by
          cases (Ledger.owned_ok_true.mpr h).symm.trans hok
        simp only [Bool.false_eq_true, if_false, mem_cons, hres]
        constructor
        · rintro ⟨hx, hp⟩
          exact ⟨.inr hx, hp⟩
        · rintro ⟨rfl | hx, hp⟩
          · exact absurd hp hopen
          · exact ⟨hx, hp⟩
    · cases hs.symm.trans herr

theorem pendingEach_spec (hw : Fine w₀ w) : ∀ l : List Receipt,
    (∀ r ∈ l, r.source = .deletion ∧ provenBy r.app (w.recordOf r.app r.operation)) →
    Settling b w₀ (pendingEach l)
      (fun res w' => w' = w ∧ res = l.map fun r => (r.app, r.operation)) w
  | [], _ => ⟨hw, rfl, rfl⟩
  | r :: rest, hl => by
    obtain ⟨hsource, hproven⟩ := hl r mem_cons_self
    refine wp_check hw (fun _ => by simp [hsource]) fun _ => ?_
    refine wp_recordOf hw ?_
    refine wp_check hw (fun _ => hproven) fun _ => ?_
    refine wp_settles (pendingEach_spec hw rest fun s hs => hl s (mem_cons_of_mem _ hs)) ?_
    rintro res w' hw' ⟨rfl, rfl⟩
    exact ⟨hw', rfl, rfl⟩

theorem pending_spec (hw : Fine w₀ w) : Settling b w₀ pending
      (fun res w' => w' = w ∧ ∀ app op, (app, op) ∈ res ↔
        ∃ r ∈ w.receipts, r.finalized = false ∧ r.app = app ∧ r.operation = op) w := by
  refine wp_receipts hw ?_
  refine settles_mono (pendingEach_spec hw _ fun r hr => ?_) ?_
  · obtain ⟨hr, hopen⟩ := mem_filter.mp hr
    exact ⟨hw.sound.source r hr, hw.sound.proven r hr (by simpa using hopen)⟩
  · rintro res w' ⟨rfl, rfl⟩
    refine ⟨rfl, fun app op => ?_⟩
    simp only [mem_map, mem_filter, Bool.not_eq_true', Prod.mk.injEq]
    exact ⟨fun ⟨r, ⟨hr, hopen⟩, h⟩ => ⟨r, hr, hopen, h⟩, fun ⟨r, hr, hopen, h⟩ =>
      ⟨r, ⟨hr, hopen⟩, h⟩⟩

/-- A deletion that has succeeded and still has its tombstone, or a receipt that is not
finalized. -/
def Unfinished (w : Host) (app op : Uuid) : Prop :=
  (w.hasTombstone app op = true ∧ provenBy app (w.recordOf app op) = true) ∨
    ∃ r ∈ w.receipts, r.finalized = false ∧ r.app = app ∧ r.operation = op

variable {app op app' op' other : Uuid} {w' : Host} {c : RemovalChoice} {t : Tombstone}

theorem hasTombstone_iff :
    w.hasTombstone app op = true ↔ (app, op) ∈ w.trash.map fun t => (t.app, t.operation) := by
  simp [Host.hasTombstone]

theorem validateAppTombstones_spec (hw : Fine w₀ w) : Settling b w₀ validateAppTombstones
      (fun res w' => w' = w ∧ ∀ app op, (app, op) ∈ res ↔
        w.hasTombstone app op = true ∧ provenBy app (w.recordOf app op) = true) w := by
  refine wp_tombstones hw ?_
  refine settles_mono (validateEach_spec hw _ fun x hx => ?_) ?_
  · obtain ⟨t, ht, rfl⟩ := mem_map.mp hx
    exact hw.sound.owned t ht
  · rintro res w' ⟨rfl, hres⟩
    exact ⟨rfl, fun app op => by rw [hres, hasTombstone_iff]⟩

theorem succeededAppTombstones_spec (hw : Fine w₀ w) : Settling b w₀ succeededAppTombstones
      (fun res w' => w' = w ∧ res.Nodup ∧ ∀ app op, (app, op) ∈ res ↔ Unfinished w app op) w := by
  refine wp_settles (validateAppTombstones_spec hw) ?_
  rintro succeeded w' hw' ⟨rfl, hsucceeded⟩
  refine wp_settles (pending_spec hw') ?_
  rintro unfinished w'' hw'' ⟨rfl, hunfinished⟩
  refine ⟨hw'', rfl, nodup_eraseDups _, fun app op => ?_⟩
  rw [List.mem_eraseDups, List.mem_append, hsucceeded, hunfinished]
  exact Iff.rfl

/-! ## One deletion -/

/-- What was done is about `app` only. -/
structure Progress (app : Uuid) (w w' : Host) : Prop where
  trash : ∀ t ∈ w'.trash, t ∈ w.trash
  others : ∀ t ∈ w.trash, t.app ≠ app → t ∈ w'.trash
  receipts : ∀ r : Receipt, r.app ≠ app → (r ∈ w'.receipts ↔ r ∈ w.receipts)

theorem Progress.refl (app : Uuid) (w : Host) : Progress app w w :=
  ⟨fun _ h => h, fun _ h _ => h, fun _ _ => Iff.rfl⟩

theorem Progress.trans {w'' : Host} (h : Progress app w w')
    (h' : Progress app w' w'') : Progress app w w'' :=
  ⟨fun t ht => h.trash t (h'.trash t ht), fun t ht hne => h'.others t (h.others t ht hne) hne,
    fun r hne => (h'.receipts r hne).trans (h.receipts r hne)⟩

/-- The deletion has its receipt. -/
def HasReceipt (w : Host) (app op : Uuid) : Prop := ∃ r ∈ w.receipts, r.app = app ∧ r.operation = op

theorem insertReceipt_sound (hw : Sound w)
    (hproven : provenBy app (w.recordOf app op) = true) : Sound (w.insertReceipt app op) := by
  unfold Host.insertReceipt
  split
  · exact hw
  next hnone =>
    refine hw.frame rfl (fun t ht => ⟨hw.readable t ht, t, ht, rfl, rfl⟩) hw.distinct
      (fun r hr => ?_) ?_
    · rcases mem_cons.mp hr with rfl | hr
      · exact ⟨rfl, .record hproven, fun _ => hproven⟩
      · exact ⟨hw.source r hr, .receipt r hr rfl rfl, hw.proven r hr⟩
    · refine List.pairwise_cons.mpr ⟨fun r hr heq => hnone ?_, hw.single⟩
      exact any_eq_true.mpr ⟨r, hr, by simpa using heq.symm⟩

theorem insertReceipt_fewer (hproven : provenBy app (w.recordOf app op) = true)
    (h : Deletes (w.insertReceipt app op) app' op') : Deletes w app' op' := by
  unfold Host.insertReceipt at h
  split at h
  · exact h
  · rcases h with ⟨t, ht, happ, hop⟩ | ⟨r, hr, happ, hop⟩ | hrecord
    · exact .tombstone t ht happ hop
    · rcases mem_cons.mp hr with rfl | hr
      · cases happ
        cases hop
        exact .record hproven
      · exact .receipt r hr happ hop
    · exact .record hrecord

theorem insertReceipt_progress (w : Host) (app op : Uuid) :
    Progress app w (w.insertReceipt app op) := by
  unfold Host.insertReceipt
  split
  · exact .refl app w
  · refine ⟨fun t ht => ht, fun t ht _ => ht, fun r hne => ?_⟩
    simp only [mem_cons, or_iff_right_iff_imp]
    rintro rfl
    exact absurd rfl hne

theorem insertReceipt_kept (w : Host) (app op : Uuid) : Kept w (w.insertReceipt app op) := by
  unfold Host.insertReceipt
  split <;> rfl

theorem insertReceipt_has (hw : Sound w) (hproven : provenBy app (w.recordOf app op) = true) :
    HasReceipt (w.insertReceipt app op) app op := by
  unfold Host.insertReceipt
  split
  next hany =>
    obtain ⟨r, hr, happ⟩ := any_eq_true.mp hany
    obtain rfl : r.app = app := by simpa using happ
    exact ⟨r, hr, rfl, hw.agree _ _ _ (.receipt r hr rfl rfl) (.record hproven)⟩
  · exact ⟨_, mem_cons_self, rfl, rfl⟩

theorem preserveProof_spec (hw : Fine w₀ w)
    (hproven : b → provenBy app (w.recordOf app op) = true) : Settling b w₀ (preserveProof app op)
      (fun _ w' => Progress app w w' ∧ w'.trash = w.trash ∧ HasReceipt w' app op ∧
        provenBy app (w.recordOf app op) = true) w := by
  refine wp_syncUnregisteredApp hw (fun hb => hw.sound.absent app op (.record (hproven hb))) ?_
  refine wp_recordOf hw ?_
  refine wp_check hw hproven fun hproven => ?_
  have hnew : Fine w₀ (w.insertReceipt app op) :=
    ⟨insertReceipt_sound hw.sound hproven, hw.kept.trans (insertReceipt_kept w app op),
      fun app' op' hd => hw.fewer app' op' (insertReceipt_fewer hproven hd)⟩
  refine wp_call fun o hc => ?_
  have hact : (appWorld.act w (Call.insertReceipt app op) o).2 =
    if o.applied then w.insertReceipt app op else w := rfl
  cases o with
  | failed applied =>
    have hfine : Fine w₀ (appWorld.act w (Call.insertReceipt app op) (.failed applied)).2 := by
      rw [hact]
      split
      · exact hnew
      · exact hw
    exact ⟨hfine, hfine, fun hb => by simpa [works] using hc.2 hb⟩
  | ok =>
    refine ⟨hnew, ?_⟩
    refine wp_look rfl hnew fun readable hc => ?_
    cases readable with
    | false => exact ⟨hnew, fun hb => nomatch hc.2 hb⟩
    | true =>
      have hhas := insertReceipt_has hw.sound hproven
      have htrash : (w.insertReceipt app op).trash = w.trash := by
        unfold Host.insertReceipt
        split <;> rfl
      refine (wp_ensure _ _ _ _).mpr
        ⟨fun _ => ⟨hnew, insertReceipt_progress w app op, htrash, hhas, hproven⟩,
        fun hbad => ⟨hnew, fun _ => ?_⟩⟩
      obtain ⟨r, hr, happ, hop⟩ := hhas
      obtain ⟨s, hs⟩ :
        ∃ s, (w.insertReceipt app op).receipts.find? (fun r => r.app == app) = some s :=
        Option.isSome_iff_exists.mp (List.find?_isSome.mpr ⟨r, hr, by simpa using happ⟩)
      have hsmem := List.mem_of_find?_eq_some hs
      have hsapp : s.app = app := by simpa using List.find?_some hs
      have hsop : s.operation = op :=
        hnew.sound.agree app _ _ (.receipt s hsmem hsapp rfl) (.receipt r hr happ hop)
      have hbad : (Option.any (fun r : Receipt => r.operation == op && r.source == .deletion)
        ((w.insertReceipt app op).receipts.find? fun r => r.app == app)) = false := hbad
      rw [hs] at hbad
      simp [hsop, hnew.sound.source s hsmem] at hbad

/-- Nothing is left of the app, and its receipt says so. -/
structure Finished (w : Host) (app op : Uuid) : Prop where
  cleared : ∀ t ∈ w.trash, t.app ≠ app
  receipt : ∃ r ∈ w.receipts, r.app = app ∧ r.operation = op ∧ r.finalized = true

theorem mem_markFinalized {r : Receipt} : r ∈ (w.markFinalized app op).receipts ↔
      ∃ s ∈ w.receipts, (if finalizes app op s then { s with finalized := true } else s) = r :=
  mem_map

theorem markFinalized_sound (hw : Sound w) : Sound (w.markFinalized app op) := by
  refine hw.frame rfl (fun t ht => ⟨hw.readable t ht, t, ht, rfl, rfl⟩) hw.distinct
      (fun r hr => ?_) ?_
  · obtain ⟨s, hs, rfl⟩ := mem_markFinalized.mp hr
    split
    · exact ⟨hw.source s hs, .receipt s hs rfl rfl, nofun⟩
    · exact ⟨hw.source s hs, .receipt s hs rfl rfl, hw.proven s hs⟩
  · refine List.pairwise_map.mpr (hw.single.imp fun {r s} hne => ?_)
    split <;> split <;> exact hne

theorem markFinalized_fewer
    (h : Deletes (w.markFinalized app op) app' op') : Deletes w app' op' := by
  rcases h with ⟨t, ht, happ, hop⟩ | ⟨r, hr, happ, hop⟩ | hrecord
  · exact .tombstone t ht happ hop
  · obtain ⟨s, hs, rfl⟩ := mem_markFinalized.mp hr
    refine .receipt s hs ?_ ?_
    · rw [← happ]
      split <;> rfl
    · rw [← hop]
      split <;> rfl
  · exact .record hrecord

theorem markFinalized_progress (w : Host) (app op : Uuid) :
    Progress app w (w.markFinalized app op) := by
  refine ⟨fun t ht => ht, fun t ht _ => ht, fun r hne => ?_⟩
  rw [mem_markFinalized]
  constructor
  · rintro ⟨s, hs, rfl⟩
    split
    next h =>
      have happ : s.app = app := by
        simp only [finalizes, and_eq_true, beq_iff_eq] at h
        exact h.1.1
      rw [if_pos h] at hne
      exact absurd happ hne
    · exact hs
  · intro hr
    refine ⟨r, hr, if_neg fun h => hne ?_⟩
    simp only [finalizes, and_eq_true, beq_iff_eq] at h
    exact h.1.1

theorem finalizes_one (hw : Sound w) (hhas : HasReceipt w app op) :
    (w.receipts.filter (finalizes app op)).length = 1 := by
  obtain ⟨r, hr, happ, hop⟩ := hhas
  have hmem : r ∈ w.receipts.filter (finalizes app op) :=
    mem_filter.mpr ⟨hr, by simp [finalizes, happ, hop, hw.source r hr]⟩
  have hpair := hw.single.sublist (List.filter_sublist (p := finalizes app op))
  match hl : w.receipts.filter (finalizes app op) with
  | [] => simp [hl] at hmem
  | [_] => rfl
  | x :: y :: rest =>
    have happs : ∀ z ∈ w.receipts.filter (finalizes app op), z.app = app := by
      intro z hz
      have := (mem_filter.mp hz).2
      simp only [finalizes, and_eq_true, beq_iff_eq] at this
      exact this.1.1
    rw [hl] at hpair happs
    have hne := (List.pairwise_cons.mp hpair).1 y mem_cons_self
    exact absurd ((happs x mem_cons_self).trans
      (happs y (mem_cons_of_mem _ mem_cons_self)).symm) hne

theorem markFinalized_spec (hw : Fine w₀ w)
    (hlive : b → w.isLive app = false) (hclear : b → ∀ t ∈ w.trash, t.app ≠ app)
    (hhas : HasReceipt w app op) : Settling b w₀ (markFinalized app op)
      (fun _ w' => Progress app w w' ∧ w'.trash = w.trash ∧ Finished w' app op) w := by
  refine wp_syncUnregisteredApp hw hlive ?_
  refine wp_tombstones hw ?_
  refine wp_check hw (fun hb => ?_) fun hnone => ?_
  · simpa using hclear hb
  have hclear : ∀ t ∈ w.trash, t.app ≠ app := by simpa using hnone
  have hnew : Fine w₀ (w.markFinalized app op) := ⟨markFinalized_sound hw.sound, hw.kept.trans rfl,
      fun app' op' hd => hw.fewer app' op' (markFinalized_fewer hd)⟩
  refine wp_call fun o hc => ?_
  have hact : (appWorld.act w (Call.markFinalized app op) o).2 =
    if o.applied then w.markFinalized app op else w := rfl
  cases o with
  | failed applied =>
    have hfine : Fine w₀ (appWorld.act w (Call.markFinalized app op) (.failed applied)).2 := by
      rw [hact]
      split
      · exact hnew
      · exact hw
    exact ⟨hfine, hfine, fun hb => by simpa [works] using hc.2 hb⟩
  | ok =>
    refine ⟨hnew, ?_⟩
    refine (wp_ensure _ _ _ _).mpr
      ⟨fun _ => ⟨hnew, markFinalized_progress w app op, rfl, hclear, ?_⟩,
      fun hbad => ⟨hnew, fun _ => ?_⟩⟩
    · obtain ⟨r, hr, happ, hop⟩ := hhas
      refine ⟨{ r with finalized := true }, mem_markFinalized.mpr ⟨r, hr, if_pos ?_⟩,
        happ, hop, rfl⟩
      simp [finalizes, happ, hop, hw.sound.source r hr]
    · have hbad : ((w.receipts.filter (finalizes app op)).length == 1) = false := hbad
      rw [finalizes_one hw.sound hhas] at hbad
      cases hbad

theorem mem_removeTombstone (h : t ∈ (w.removeTombstone app op c).2.trash) :
    (t ∈ w.trash ∧ ¬(t.app = app ∧ t.operation = op)) ∨ ∃ order, c = .stopped order ∧
        ∃ s ∈ w.trash, s.app = app ∧ s.operation = op ∧ s.after order = t ∧
          t.tree.isEmpty = false := by
  cases c with
  | removed synced =>
    obtain ⟨ht, hne⟩ := mem_filter.mp h
    exact .inl ⟨ht, fun ⟨happ, hop⟩ => by simp [happ, hop] at hne⟩
  | stopped order =>
    obtain ⟨s, hs, heq⟩ := mem_filterMap.mp h
    split at heq
    next hs' =>
      dsimp only at heq
      split at heq
      · cases heq
      next hempty =>
        cases heq
        exact .inr ⟨order, rfl, s, hs, hs'.1, hs'.2, rfl, by simpa using hempty⟩
    next hs' =>
      cases heq
      exact .inl ⟨hs, hs'⟩

theorem mem_removeTombstone_of_ne (ht : t ∈ w.trash) (hne : ¬(t.app = app ∧ t.operation = op)) :
    t ∈ (w.removeTombstone app op c).2.trash := by
  cases c with
  | removed synced => exact mem_filter.mpr ⟨ht, by simpa using Decidable.not_and_iff_or_not.mp hne⟩
  | stopped order => exact mem_filterMap.mpr ⟨t, ht, if_neg hne⟩

theorem removeTombstone_kept (w : Host) (app op : Uuid) (c : RemovalChoice) :
    Kept w (w.removeTombstone app op c).2 := by
  cases c <;> rfl

theorem removeTombstone_receipts (w : Host) (app op : Uuid) (c : RemovalChoice) :
    (w.removeTombstone app op c).2.receipts = w.receipts := by
  cases c <;> rfl

theorem removeTombstone_distinct (h : w.trash.Pairwise fun s t => s.app ≠ t.app) :
    (w.removeTombstone app op c).2.trash.Pairwise fun s t => s.app ≠ t.app := by
  cases c with
  | removed synced => exact h.sublist List.filter_sublist
  | stopped order =>
    refine List.pairwise_filterMap.mpr (h.imp fun {s t} hne s' hs' t' ht' => ?_)
    have happ : ∀ {s s' : Tombstone}, (if s.app = app ∧ s.operation = op then
        if (s.tree.removeAll order).isEmpty then none
        else some { s with tree := s.tree.removeAll order }
        else some s) = some s' → s'.app = s.app := by
      intro s s' hs
      split at hs
      · split at hs
        · cases hs
        · cases hs
          rfl
      · cases hs
        rfl
    rw [happ hs', happ ht']
    exact hne

theorem Tombstone.readable_after {order : List Path} (h : t.metadata.isSome)
    (hsurvives : t.survives order = true) (hleft : (t.after order).tree.isEmpty = false) :
    (t.after order).metadata.isSome := by
  obtain ⟨m, hm⟩ := Option.isSome_iff_exists.mp h
  simp only [Tombstone.survives, hleft, Bool.false_or, and_eq_true] at hsurvives
  rw [Tombstone.metadata_after hm hsurvives.1 hsurvives.2]
  rfl

theorem removeTombstone_readable (hw : ∀ t ∈ w.trash, t.metadata.isSome)
    (hintact : intact w (.removeTombstone app op) c = true) :
    ∀ t ∈ (w.removeTombstone app op c).2.trash, t.metadata.isSome := by
  intro t ht
  rcases mem_removeTombstone ht with ⟨ht, -⟩ | ⟨order, rfl, s, hs, happ, hop, rfl, hleft⟩
  · exact hw t ht
  · have hsurvives := List.all_eq_true.mp hintact s hs
    exact Tombstone.readable_after (hw s hs) (by simpa [happ, hop] using hsurvives) hleft

theorem removeTombstone_sound (hw : Sound w)
    (hintact : intact w (.removeTombstone app op) c = true) :
    Sound (w.removeTombstone app op c).2 := by
  refine hw.frame (removeTombstone_kept w app op c) (fun t ht => ?_)
    (removeTombstone_distinct hw.distinct) (fun r hr => ?_) ?_
  · refine ⟨removeTombstone_readable hw.readable hintact t ht, ?_⟩
    rcases mem_removeTombstone ht with ⟨ht, -⟩ | ⟨order, -, s, hs, -, -, rfl, -⟩
    · exact ⟨t, ht, rfl, rfl⟩
    · exact ⟨s, hs, rfl, rfl⟩
  · rw [removeTombstone_receipts] at hr
    exact ⟨hw.source r hr, .receipt r hr rfl rfl, hw.proven r hr⟩
  · rw [removeTombstone_receipts]
    exact hw.single

theorem removeTombstone_fewer
    (h : Deletes (w.removeTombstone app op c).2 app' op') : Deletes w app' op' := by
  rcases h with ⟨t, ht, happ, hop⟩ | ⟨r, hr, happ, hop⟩ | hrecord
  · rcases mem_removeTombstone ht with ⟨ht, -⟩ | ⟨order, -, s, hs, -, -, rfl, -⟩
    · exact .tombstone t ht happ hop
    · exact .tombstone s hs happ hop
  · rw [removeTombstone_receipts] at hr
    exact .receipt r hr happ hop
  · rw [(removeTombstone_kept w app op c).recordOf] at hrecord
    exact .record hrecord

theorem readTombstoneMetadata_ok (hw : Sound w)
    (h : w.hasTombstone app op = true) : ∃ m, w.readTombstoneMetadata app op = .ok m := by
  obtain ⟨t, ht⟩ : ∃ t, w.trash.find? (fun t => t.app == app && t.operation == op) = some t :=
    Option.isSome_iff_exists.mp (List.find?_isSome.mpr (any_eq_true.mp h))
  obtain ⟨m, hm⟩ := Option.isSome_iff_exists.mp (hw.readable t (List.mem_of_find?_eq_some ht))
  refine ⟨m, ?_⟩
  unfold Host.readTombstoneMetadata
  simp only [ht, hm]

theorem wp_readTombstoneMetadata {Q : β → Host → Prop} {k : Metadata → Finalizer β} (hw : Fine w₀ w)
    (hhas : b → w.hasTombstone app op = true)
    (hk : ∀ m, Settling b w₀ (k m) Q w) :
    Settling b w₀ (Prog.ask (Call.readTombstoneMetadata app op) >>= fun r => fromStore r >>= k) Q
      w := by
  refine wp_look rfl hw fun readable hc => ?_
  cases readable with
  | false => exact ⟨hw, fun hb => nomatch hc.2 hb⟩
  | true =>
    refine wp_orElse_bind (fun m _ => hk m) fun err herr => ⟨hw, fun hb => ?_⟩
    obtain ⟨m, hm⟩ := readTombstoneMetadata_ok hw.sound (hhas hb)
    cases hm.symm.trans herr

theorem syncTombstone_spec (hw : Fine w₀ w)
    (hhas : b → w.hasTombstone app op = true) (hlive : b → w.isLive app = false) :
    Settling b w₀ (syncTombstone app op) (fun _ w' => w' = w) w := by
  refine wp_readTombstoneMetadata hw hhas fun _ => ?_
  refine wp_look rfl hw fun o hc => ?_
  refine (wp_orElse _ _ _ _).mpr ⟨fun _ _ => ⟨hw, rfl⟩, fun err herr => ⟨hw, fun hb => ?_⟩⟩
  have herr : w.syncUnregisteredApp app o = .error err := herr
  have ho : o = .ok := by simpa [works] using hc.2 hb
  simp [Host.syncUnregisteredApp, hlive hb, ho, Outcome.result] at herr

theorem finalizeTombstone_spec (hw : Fine w₀ w) (hhas : b → w.hasTombstone app op = true) :
    Settling b w₀ (finalizeTombstone app op)
      (fun _ w' => Progress app w w' ∧ w'.receipts = w.receipts ∧
        ∀ t ∈ w'.trash, ¬(t.app = app ∧ t.operation = op)) w := by
  refine wp_readTombstoneMetadata hw hhas fun _ => ?_
  refine wp_call fun c hc => ?_
  have hnew : Fine w₀ (w.removeTombstone app op c).2 :=
    ⟨removeTombstone_sound hw.sound hc.1, hw.kept.trans (removeTombstone_kept w app op c),
      fun app' op' hd => hw.fewer app' op' (removeTombstone_fewer hd)⟩
  refine ⟨hnew, (wp_orElse _ _ _ _).mpr
    ⟨fun _ hok => ⟨hnew, ?_⟩, fun err herr => ⟨hnew, fun hb => ?_⟩⟩⟩
  · have hok : (w.removeTombstone app op c).1 = .ok () := hok
    have hgone : ∀ t ∈ (w.removeTombstone app op c).2.trash, t ∈ w.trash ∧
      ¬(t.app = app ∧ t.operation = op) := by
      intro t ht
      rcases mem_removeTombstone ht with h | ⟨order, rfl, -⟩
      · exact h
      · cases hok
    refine ⟨⟨fun t ht => (hgone t ht).1, fun t ht hne => mem_removeTombstone_of_ne ht fun h =>
      hne h.1, fun r _ => ?_⟩,
      removeTombstone_receipts w app op c, fun t ht => (hgone t ht).2⟩
    exact (removeTombstone_receipts w app op c).symm ▸ Iff.rfl
  · have hc : c = .removed true := by simpa [works] using hc.2 hb
    subst hc
    cases herr

theorem clearTombstone_spec {has : Bool} (hw : Fine w₀ w) (hhas : has = w.hasTombstone app op)
    (hproven : b → provenBy app (w.recordOf app op) = true) :
    Settling b w₀ (clearTombstone app op has)
      (fun _ w' => Progress app w w' ∧ HasReceipt w' app op ∧
        (∀ t ∈ w'.trash, ¬(t.app = app ∧ t.operation = op)) ∧
        provenBy app (w.recordOf app op) = true) w := by
  unfold clearTombstone
  cases has with
  | false =>
    refine settles_mono (preserveProof_spec hw hproven) ?_
    rintro _ w' ⟨hprogress, htrash, hreceipt, hproven⟩
    refine ⟨hprogress, hreceipt, fun t ht heq => ?_, hproven⟩
    have hnone : w.hasTombstone app op = true :=
      any_eq_true.mpr ⟨t, htrash ▸ ht, by simpa using heq⟩
    rw [← hhas] at hnone
    cases hnone
  | true =>
    refine wp_settles (syncTombstone_spec hw (fun _ => hhas.symm)
      fun hb => hw.sound.absent app op (.record (hproven hb))) ?_
    rintro _ w' hw ⟨rfl⟩
    refine wp_settles (preserveProof_spec hw hproven) ?_
    rintro _ w' hw' ⟨hprogress, htrash, ⟨r, hr, happ, hop⟩, hproven⟩
    refine settles_mono (finalizeTombstone_spec hw'
      fun _ => by rw [hhas, Host.hasTombstone, htrash]; rfl) ?_
    rintro _ w'' ⟨hprogress', hreceipts, hgone⟩
    exact ⟨hprogress.trans hprogress', ⟨r, hreceipts ▸ hr, happ, hop⟩, hgone, hproven⟩

/-- All that is left of an app's deletion names one operation, so clearing that clears
the app. -/
theorem cleared_of_gone (hw : Sound w)
    (hproven : provenBy app (w.recordOf app op) = true) (hprogress : Progress app w w')
    (hgone : ∀ t ∈ w'.trash, ¬(t.app = app ∧ t.operation = op)) : ∀ t ∈ w'.trash, t.app ≠ app := by
  intro t ht happ
  refine hgone t ht ⟨happ, ?_⟩
  exact hw.agree app _ _ (.tombstone t (hprogress.trash t ht) happ rfl) (.record hproven)

theorem Unfinished.proven (hw : Sound w) (h : Unfinished w app op) :
    provenBy app (w.recordOf app op) = true := by
  rcases h with ⟨-, h⟩ | ⟨r, hr, hopen, rfl, rfl⟩
  · exact h
  · exact hw.proven r hr hopen

theorem finalizeAppUnregistration_spec (hw : Fine w₀ w) (hopen : b → Unfinished w app op) :
    Settling b w₀ (finalizeAppUnregistration app op)
      (fun _ w' => Progress app w w' ∧ Finished w' app op) w := by
  refine wp_settles (succeededAppTombstones_spec hw) ?_
  rintro succeeded w' hw ⟨rfl, -, hsucceeded⟩
  refine wp_check hw (fun hb => ?_) fun hmem => ?_
  · exact List.contains_iff_mem.mpr ((hsucceeded app op).mpr (hopen hb))
  have hproven :=
    Unfinished.proven hw.sound ((hsucceeded app op).mp (List.contains_iff_mem.mp hmem))
  refine wp_tombstones hw ?_
  refine wp_settles (clearTombstone_spec hw ?_ fun _ => hproven) ?_
  · rw [Bool.eq_iff_iff, List.contains_iff_mem, hasTombstone_iff]
  rintro _ w'' hw'' ⟨hprogress, hreceipt, hgone, -⟩
  have hlive : w''.isLive app = false :=
    hw''.sound.absent app op (.record (by
      rw [hw''.kept.recordOf, ← hw.kept.recordOf]
      exact hproven))
  refine settles_mono (markFinalized_spec hw'' (fun _ => hlive)
    (fun _ => cleared_of_gone hw.sound hproven hprogress hgone) hreceipt) ?_
  rintro _ w3 ⟨hprogress', -, hfinished⟩
  exact ⟨hprogress.trans hprogress', hfinished⟩

/-! ## Every deletion that has succeeded -/

theorem Finished.progress (h : Finished w app op)
    (hprogress : Progress other w w') (hne : other ≠ app) : Finished w' app op := by
  obtain ⟨r, hr, rfl, hop, hfinal⟩ := h.receipt
  exact ⟨fun t ht => h.cleared t (hprogress.trash t ht),
    r, (hprogress.receipts r hne.symm).mpr hr, rfl, hop, hfinal⟩

theorem Unfinished.progress (h : Unfinished w app op)
    (hprogress : Progress other w w') (hne : other ≠ app)
    (hrecord : w'.recordOf app op = w.recordOf app op) : Unfinished w' app op := by
  rcases h with ⟨htomb, hproven⟩ | ⟨r, hr, hopen, rfl, hop⟩
  · refine .inl ⟨?_, hrecord ▸ hproven⟩
    obtain ⟨t, ht, heq⟩ := any_eq_true.mp htomb
    have happ : t.app = app := by
      simp only [and_eq_true, beq_iff_eq] at heq
      exact heq.1
    exact any_eq_true.mpr ⟨t, hprogress.others t ht fun h => hne (h.symm.trans happ), heq⟩
  · exact .inr ⟨r, (hprogress.receipts r hne.symm).mpr hr, hopen, rfl, hop⟩

theorem finalizeEach_spec : ∀ {w : Host} (l : List (Uuid × Uuid)), Fine w₀ w →
    l.Pairwise (fun x y => x.1 ≠ y.1) → (b → ∀ x ∈ l, Unfinished w x.1 x.2) →
    Settling b w₀ (finalizeEach l) (fun _ w' => (∀ x ∈ l, Finished w' x.1 x.2) ∧
        ∀ app op, app ∉ l.map (·.1) → Finished w app op → Finished w' app op) w
  | _, [], hw, _, _ => ⟨hw, nofun, fun _ _ _ h => h⟩
  | w, (app, op) :: rest, hw, hpair, hopen => by
    obtain ⟨hne, hpair⟩ := List.pairwise_cons.mp hpair
    refine wp_settles (finalizeAppUnregistration_spec hw fun hb => hopen hb _ mem_cons_self) ?_
    rintro _ w' hw' ⟨hprogress, hfinished⟩
    refine settles_mono (finalizeEach_spec rest hw' hpair fun hb x hx => ?_) ?_
    · refine (hopen hb x (mem_cons_of_mem _ hx)).progress hprogress (hne x hx) ?_
      rw [hw'.kept.recordOf, hw.kept.recordOf]
    · rintro _ w'' ⟨hrest, hothers⟩
      refine ⟨fun x hx => ?_, fun app' op' hnot h => ?_⟩
      · rcases mem_cons.mp hx with rfl | hx
        · refine hothers app op (fun hmem => ?_) hfinished
          obtain ⟨y, hy, heq⟩ := mem_map.mp hmem
          exact hne y hy heq.symm
        · exact hrest x hx
      · simp only [List.map_cons, mem_cons, not_or] at hnot
        exact hothers app' op' hnot.2 (h.progress hprogress (Ne.symm hnot.1))

theorem Unfinished.deletes (hw : Sound w) (h : Unfinished w app op) :
    Deletes w app op := .record (h.proven hw)

theorem pairwise_app_ne (hw : Sound w) {l : List (Uuid × Uuid)} (hnodup : l.Nodup)
    (hl : ∀ x ∈ l, Unfinished w x.1 x.2) : l.Pairwise fun x y => x.1 ≠ y.1 := by
  refine List.Pairwise.imp_of_mem (fun {x y} hx hy hne heq => hne ?_) hnodup
  have hx := (hl x hx).deletes hw
  rw [heq] at hx
  exact Prod.ext heq (hw.agree _ _ _ hx ((hl y hy).deletes hw))

/-- When there is nothing unfinished, a proven deletion that has its receipt is finished. -/
theorem finished_or_unfinished (hw : Sound w) (hproven : provenBy app (w.recordOf app op) = true)
    (hreceipt : (∀ t ∈ w.trash, t.app ≠ app) → HasReceipt w app op) :
    Finished w app op ∨ Unfinished w app op := by
  by_cases hclear : ∀ t ∈ w.trash, t.app ≠ app
  · obtain ⟨r, hr, happ, hop⟩ := hreceipt hclear
    cases hfinal : r.finalized with
    | true => exact .inl ⟨hclear, r, hr, happ, hop, hfinal⟩
    | false => exact .inr (.inr ⟨r, hr, hfinal, happ, hop⟩)
  · refine .inr (.inl ⟨?_, hproven⟩)
    simp only [ne_eq, Classical.not_forall, Classical.not_not] at hclear
    obtain ⟨t, ht, happ⟩ := hclear
    have hop := hw.agree app _ _ (.tombstone t ht happ rfl) (.record hproven)
    exact any_eq_true.mpr ⟨t, ht, by simp [happ, hop]⟩

/-- A receipt is one, so a finished deletion is not unfinished under any operation. -/
theorem Finished.not_unfinished (hw : Sound w) (h : Finished w app op) : ¬Unfinished w app op' := by
  rintro (⟨htomb, -⟩ | ⟨s, hs, hopen, happ', -⟩)
  · obtain ⟨t, ht, heq⟩ := any_eq_true.mp htomb
    simp only [and_eq_true, beq_iff_eq] at heq
    exact h.cleared t ht heq.1
  · obtain ⟨r, hr, happ, -, hfinal⟩ := h.receipt
    have hrs : r = s := eq_of_key_eq hw.single hr hs (happ.trans happ'.symm)
    rw [hrs, hopen] at hfinal
    cases hfinal

theorem finalizeSucceededTombstones_spec (hw : Fine w₀ w) :
    Settling b w₀ finalizeSucceededTombstones
      (fun _ w' => ∀ app op, provenBy app (w.recordOf app op) = true →
        ((∀ t ∈ w.trash, t.app ≠ app) → HasReceipt w app op) → Finished w' app op) w := by
  refine wp_settles (succeededAppTombstones_spec hw) ?_
  rintro l w' hw ⟨rfl, hnodup, hl⟩
  refine settles_mono (finalizeEach_spec l hw
    (pairwise_app_ne hw.sound hnodup fun x hx => (hl x.1 x.2).mp hx)
    fun _ x hx => (hl x.1 x.2).mp hx) ?_
  rintro _ w'' ⟨hlist, hothers⟩ app op hproven hreceipt
  rcases finished_or_unfinished hw.sound hproven hreceipt with hfinished | hopen
  · refine hothers app op (fun hmem => ?_) hfinished
    obtain ⟨x, hx, rfl⟩ := mem_map.mp hmem
    exact hfinished.not_unfinished hw.sound ((hl x.1 x.2).mp hx)
  · exact hlist (app, op) ((hl app op).mpr hopen)

/-! ## Startup -/

/-- `interrupt_pending` on the whole state. -/
def Host.interrupt (w : Host) : Host := { w with ledger := w.ledger.interruptPending }

theorem proven_interrupt (w : Host) (app op : Uuid) :
    provenBy app (w.interrupt.recordOf app op) = provenBy app (w.recordOf app op) := by
  unfold provenBy Host.recordOf
  rw [show w.interrupt.ledger = w.ledger.interruptPending from rfl, Ledger.view_interruptPending,
    Ledger.proven_interrupt]

theorem owned_interrupt (w : Host) (app op : Uuid) :
    ownedBy app (w.interrupt.recordOf app op) = ownedBy app (w.recordOf app op) := by
  unfold ownedBy Host.recordOf
  rw [show w.interrupt.ledger = w.ledger.interruptPending from rfl, Ledger.view_interruptPending,
    Ledger.owned_interrupt]

theorem deletes_interrupt (h : Deletes w.interrupt app op) : Deletes w app op := by
  rcases h with ⟨t, ht, happ, hop⟩ | ⟨r, hr, happ, hop⟩ | hproven
  · exact .tombstone t ht happ hop
  · exact .receipt r hr happ hop
  · exact .record (proven_interrupt w app op ▸ hproven)

theorem interrupt_sound (hw : Sound w) : Sound w.interrupt := by
  exact {
    readable := hw.readable
    owned := fun t ht => by
      rw [owned_interrupt]
      exact hw.owned t ht
    distinct := hw.distinct
    source := hw.source
    proven := fun r hr hopen => by
      rw [proven_interrupt]
      exact hw.proven r hr hopen
    single := hw.single
    agree := fun app op op' hd hd' => hw.agree app op op' (deletes_interrupt hd)
      (deletes_interrupt hd')
    absent := fun app op hd => hw.absent app op (deletes_interrupt hd)
    rows := by
      refine List.pairwise_map.mpr (hw.rows.imp fun {r s} hne => ?_)
      rw [(Ledger.advances_interrupted r).2.2.1, (Ledger.advances_interrupted s).2.2.1]
      exact hne }

theorem proven_of_succeeded {body : Body} (hw : Sound w)
    (hmem : (app, op, body) ∈ w.succeededDeletions) (hbody : body.unregisters app = true) :
    provenBy app (w.recordOf app op) = true := by
  obtain ⟨r, hr, heq⟩ := mem_filterMap.mp hmem
  split at heq
  next app' body' hroute hstatus hresponse =>
    cases heq
    have hfind : w.ledger.find? (fun s => s.route == .app app && s.operationId == r.operationId) =
      some r := by
      obtain ⟨s, hs⟩ := Option.isSome_iff_exists.mp (List.find?_isSome (p := fun s : AppRecord =>
        s.route == .app app && s.operationId == r.operationId).mpr ⟨r, hr, by simp [hroute]⟩)
      have hop := List.find?_some hs
      simp only [and_eq_true, beq_iff_eq] at hop
      rw [hs, eq_of_key_eq hw.rows (List.mem_of_find?_eq_some hs) hr hop.2]
    simp [Host.recordOf, Ledger.view, hfind, provenBy, Ledger.proven, hstatus, hresponse, hbody]
  · cases heq

theorem succeeded_of_proven (h : provenBy app (w.recordOf app op) = true) :
    ∃ body, (app, op, body) ∈ w.succeededDeletions ∧ body.unregisters app = true := by
  unfold Host.recordOf Ledger.view at h
  cases hfind : w.ledger.find? (fun r => r.route == .app app && r.operationId == op) with
  | none => simp [hfind, provenBy, Ledger.proven] at h
  | some r =>
    have hat := List.find?_some hfind
    simp only [and_eq_true, beq_iff_eq] at hat
    rw [hfind] at h
    simp only [Option.map_some, provenBy, Ledger.proven, and_eq_true, beq_iff_eq] at h
    obtain ⟨hstatus, h⟩ := h
    split at h
    next status body hresponse =>
      simp only [and_eq_true, beq_iff_eq] at h
      refine ⟨body, mem_filterMap.mpr ⟨r, List.mem_of_find?_eq_some hfind, ?_⟩, h.2⟩
      rw [hat.1, hstatus, hresponse, h.1, hat.2]
      rfl
    · cases h

theorem HasReceipt.progress (h : HasReceipt w app op)
    (hprogress : Progress other w w') (hne : other ≠ app) : HasReceipt w' app op := by
  obtain ⟨r, hr, rfl, hop⟩ := h
  exact ⟨r, (hprogress.receipts r hne.symm).mpr hr, rfl, hop⟩

/-- `backfill`: every deletion without a tombstone gets its receipt. -/
theorem backfillEach_spec {tombstoned : List Uuid} : ∀ {w : Host} (l : List (Uuid × Uuid × Body)),
    Fine w₀ w → tombstoned = w.trash.map (·.app) →
    (∀ x ∈ l, x.2.2.unregisters x.1 = true → provenBy x.1 (w₀.recordOf x.1 x.2.1) = true) →
    Settling b w₀ (backfillEach tombstoned l) (fun _ w' => w'.trash = w.trash ∧
        (∀ app op, HasReceipt w app op → HasReceipt w' app op) ∧
        ∀ x ∈ l, x.2.2.unregisters x.1 = true → x.1 ∉ tombstoned → HasReceipt w' x.1 x.2.1) w
  | _, [], hw, _, _ => ⟨hw, rfl, fun _ _ h => h, nofun⟩
  | w, (app, op, body) :: rest, hw, htomb, hproven => by
    have hrest : ∀ x ∈ rest, x.2.2.unregisters x.1 = true →
        provenBy x.1 (w₀.recordOf x.1 x.2.1) = true := fun x hx => hproven x (mem_cons_of_mem _ hx)
    unfold backfillEach
    refine wp_if (fun hskip => ?_) fun htodo => ?_
    · refine settles_mono (backfillEach_spec rest hw htomb hrest) ?_
      rintro _ w' ⟨htrash, hkeep, hall⟩
      refine ⟨htrash, hkeep, fun x hx hbody hnot => ?_⟩
      rcases mem_cons.mp hx with rfl | hx
      · have hbody : body.unregisters app = true := hbody
        exact absurd (by simpa [hbody] using hskip) hnot
      · exact hall x hx hbody hnot
    · simp only [Bool.or_eq_true, Bool.not_eq_true', List.contains_iff_mem, not_or,
        Bool.not_eq_false] at htodo
      obtain ⟨hbody, hnot⟩ := htodo
      have hp : provenBy app (w.recordOf app op) = true := by
        rw [hw.kept.recordOf]
        exact hproven _ mem_cons_self hbody
      refine wp_settles (preserveProof_spec hw fun _ => hp) ?_
      rintro _ w' hw' ⟨hprogress, htrash, hreceipt, -⟩
      have hclear : ∀ t ∈ w'.trash, t.app ≠ app := by
        intro t ht happ
        rw [htomb] at hnot
        exact hnot (mem_map.mpr ⟨t, htrash ▸ ht, happ⟩)
      have hlive : w'.isLive app = false := by
        refine hw'.sound.absent app op (.record ?_)
        rw [hw'.kept.recordOf, ← hw.kept.recordOf]
        exact hp
      refine wp_settles (markFinalized_spec hw' (fun _ => hlive) (fun _ => hclear) hreceipt) ?_
      rintro _ w'' hw'' ⟨hprogress', htrash', hfinished⟩
      have hone : HasReceipt w'' app op := by
        obtain ⟨r, hr, happ, hop, -⟩ := hfinished.receipt
        exact ⟨r, hr, happ, hop⟩
      refine settles_mono (backfillEach_spec rest hw'' (by rw [htrash', htrash, htomb]) hrest) ?_
      rintro _ w3 ⟨htrash3, hkeep, hall⟩
      refine ⟨by rw [htrash3, htrash', htrash], fun app' op' h => hkeep app' op' ?_,
        fun x hx hbody' hnot' => ?_⟩
      · by_cases heq : app' = app
        · subst heq
          obtain ⟨r, hr, happ, hop⟩ := h
          have : op' = op := hw.sound.agree app' _ _ (.receipt r hr happ hop) (.record hp)
          exact this ▸ hone
        · exact (h.progress hprogress (Ne.symm heq)).progress hprogress' (Ne.symm heq)
      · rcases mem_cons.mp hx with rfl | hx
        · exact hkeep _ _ hone
        · exact hall x hx hbody' hnot'

theorem preserveCompletedUnregistrations_spec (hw : Fine w₀ w) :
    Settling b w₀ preserveCompletedUnregistrations
      (fun _ w' => ∀ app op, provenBy app (w₀.recordOf app op) = true →
        (∀ t ∈ w'.trash, t.app ≠ app) → HasReceipt w' app op) w := by
  refine wp_tombstones hw ?_
  refine wp_look rfl hw fun readable hc => ?_
  cases readable with
  | false => exact ⟨hw, fun hb => nomatch hc.2 hb⟩
  | true =>
    refine settles_mono (backfillEach_spec w.succeededDeletions hw ?_ ?_) ?_
    · rw [List.map_map]
      rfl
    · intro x hx hbody
      rw [← hw.kept.recordOf]
      exact proven_of_succeeded hw.sound hx hbody
    · rintro _ w' ⟨htrash, -, hall⟩ app op hproven hclear
      rw [← hw.kept.recordOf] at hproven
      obtain ⟨body, hmem, hbody⟩ := succeeded_of_proven hproven
      refine hall (app, op, body) hmem hbody fun hin => ?_
      obtain ⟨x, hx, happ⟩ := mem_map.mp hin
      obtain ⟨t, ht, rfl⟩ := mem_map.mp hx
      exact hclear t (htrash ▸ ht) happ

theorem completedEach_spec (hw : Fine w₀ w) : ∀ l : List Receipt, (∀ r ∈ l, r ∈ w.receipts) →
    Settling b w₀ (completedEach (w.trash.map fun t => (t.app, t.operation)) l) (fun _ w' => w' =
      w) w
  | [], _ => ⟨hw, rfl⟩
  | r :: rest, hl => by
    have hr : r ∈ w.receipts := hl r mem_cons_self
    have hdeletes : Deletes w r.app r.operation := .receipt r hr rfl rfl
    refine wp_check hw (fun _ => by simp [hw.sound.source r hr]) fun _ => ?_
    refine wp_look rfl hw fun visible _ => ?_
    refine wp_check hw (fun _ => ?_) fun _ => ?_
    · show (!(visible && w.isLive r.app)) = true
      rw [hw.sound.absent _ _ hdeletes, Bool.and_false]
      rfl
    refine wp_check hw (fun _ => ?_) fun _ => ?_
    · rw [Bool.not_eq_true', List.any_eq_false]
      intro x hx
      obtain ⟨t, ht, rfl⟩ := mem_map.mp hx
      simp only [and_eq_true, beq_iff_eq, bne_iff_ne, ne_eq, not_and, Classical.not_not]
      exact fun happ => hw.sound.agree _ _ _ (.tombstone t ht happ rfl) hdeletes
    refine wp_settles (completedEach_spec hw rest fun s hs => hl s (mem_cons_of_mem _ hs)) ?_
    rintro _ w' hw' ⟨rfl⟩
    exact ⟨hw', rfl⟩

theorem validateCompletedUnregistrations_spec (hw : Fine w₀ w) :
    Settling b w₀ validateCompletedUnregistrations (fun _ w' => w' = w) w := by
  refine wp_settles (validateAppTombstones_spec hw) ?_
  rintro _ w' hw' ⟨rfl, -⟩
  refine wp_settles (P := fun _ w'' => w'' = w') ?_ fun _ w'' hw'' heq => ⟨hw'', heq⟩
  refine wp_tombstones hw' ?_
  refine wp_settles (pending_spec hw') ?_
  rintro _ w'' hw'' ⟨rfl, -⟩
  refine wp_receipts hw'' ?_
  exact completedEach_spec hw'' _ fun _ hr => hr

/-- Startup accepts a sound state, and finishes every deletion that has succeeded. -/
theorem resumeDeletions_spec (hw : Fine w₀ w) : Settling b w₀ resumeDeletions
      (fun _ w' => ∀ app op, provenBy app (w₀.recordOf app op) = true → Finished w' app op) w := by
  refine wp_settles (preserveCompletedUnregistrations_spec hw) ?_
  intro _ w1 hw1 hreceipts
  refine wp_settles (validateCompletedUnregistrations_spec hw1) ?_
  rintro _ w2 hw2 ⟨rfl⟩
  refine wp_settles (succeededAppTombstones_spec hw2) ?_
  rintro _ w2 hw2 ⟨rfl, -⟩
  refine settles_mono (finalizeSucceededTombstones_spec hw2) ?_
  intro _ w3 hfinished app op hproven
  exact hfinished app op (hw2.kept.recordOf app op ▸ hproven) (hreceipts app op hproven)

theorem reconcile_spec (hw : Fine w₀ w) : Settling b w₀ reconcile (fun _ _ => True) w := by
  refine wp_settles (succeededAppTombstones_spec hw) ?_
  rintro _ w' hw' ⟨rfl, -⟩
  exact settles_mono (finalizeSucceededTombstones_spec hw') fun _ _ _ => trivial

/-- Startup leaves a sound state, before or after the pending records were interrupted; when
every call works it succeeds, and every deletion on record is finished. -/
theorem startup_spec (hw : Sound w) :
    appWorld.wp (Housekeeping b) (fun w' => Fine w w' ∨ Fine w.interrupt w') startup
      (fun r w' => (Fine w w' ∨ Fine w.interrupt w') ∧
        (b → r = .ok () ∧ ∀ app op, provenBy app (w.recordOf app op) = true → Finished w' app op))
          w := by
  have hnew : Fine w.interrupt w.interrupt := .refl (interrupt_sound hw)
  refine wp_call fun o hc => ?_
  cases o with
  | failed applied =>
    have hfine : Fine w (appWorld.act w Call.interruptPending (.failed applied)).2 ∨
        Fine w.interrupt (appWorld.act w Call.interruptPending (.failed applied)).2 := by
      cases applied with
      | true => exact .inr hnew
      | false => exact .inl (.refl hw)
    exact ⟨hfine, hfine, fun hb => by simpa [works] using hc.2 hb⟩
  | ok =>
    refine ⟨.inr hnew, ?_⟩
    refine wp_weaken (resumeDeletions_spec hnew) (fun _ _ _ h => h) (fun _ h => .inr h)
      fun r w' h => ?_
    cases r with
    | error err => exact ⟨.inr h.1, fun hb => absurd hb h.2⟩
    | ok u =>
      refine ⟨.inr h.1, fun _ => ⟨rfl, fun app op hproven => h.2 app op ?_⟩⟩
      rw [proven_interrupt]
      exact hproven

end Programs

end SoloDock.Apps
