import SoloDock.Images.Unreferenced

/-!
# The tables of image cleanups along a history

What is to be shown of the removals (`RemovalsExact`, `Seen`) is part of an invariant of the
tables and the log (`Inv`). Every call but two keeps it, whatever state it is made in: the
removal of an image and the record of an item's end. Those two are made in `Exact`.
-/

namespace SoloDock.Images

open Lib Mutation Docker Cleanup

/-! ## Specification -/

/-- The locks have been taken, and are held since: the catalog was not locked again. -/
def Locked (log : List Record) : Prop :=
  ∃ w w' between locking former, log = between ++ locking ++ former
    ∧ siteWorld.Runs lockAll w locking (.ok ()) w' ∧ ∀ e ∈ between, e.call ≠ .lockCatalog

/-- The plan was made under the locks that are held. -/
def Rebuilt (log : List Record) (current : ImagePlan) : Prop :=
  ∃ resuming app w w' after planning earlier, log = after ++ planning ++ earlier
    ∧ Locked earlier ∧ siteWorld.Runs (buildScopedPlan resuming app) w planning (.ok current) w'
    ∧ ∀ e ∈ after ++ planning, e.call ≠ .lockCatalog

/-- A removal from the site `before`, after the calls `earlier`: the image is that of an item
that is durably started, the item is one of the plan made under the same locks, and Docker's
last word about the image, just before the mark, was that it is the one planned. -/
structure ExactRemoval (before : Site) (earlier : List Record) (id : ExactImageId)
    (operation : Uuid) (ordinal : Nat) (candidate : ImageCandidate) (current : ImagePlan)
    (observed : CleanupImage) : Prop where
  started : ⟨operation, ordinal, id, .started⟩ ∈ before.items
  item : ∃ o ∈ before.operations, o.id = operation ∧ o.plan[ordinal]? = some candidate
  image : candidate.imageId = id
  rebuilt : Rebuilt earlier current
  planned : candidate ∈ current.candidates
  inspected : ∃ w w' former, earlier = ⟨w, .markStarted operation ordinal, .ok ()⟩
    :: ⟨w', .inspect id, .ok (some observed)⟩ :: former
  fits : observed.image.id = id.value ∧ matchesInspect candidate.identity observed = .ok true

/-- Every removal of the log is exact. -/
def RemovalsExact : List Record → Prop
  | [] => True
  | e :: earlier =>
    (∀ id, e.call = .remove id → ∃ operation ordinal candidate current observed,
      ExactRemoval e.before earlier id operation ordinal candidate current observed)
      ∧ RemovalsExact earlier

/-- Docker did not find the image of the item at a time when the item was durably
started. -/
def Seen (log : List Record) (i : ImageItem) : Prop :=
  ∃ before, ⟨before, .inspect i.imageId, .ok none⟩ ∈ log
    ∧ ⟨i.operation, i.ordinal, i.imageId, .started⟩ ∈ before.items

/-! ## The invariant -/

def ImageItem.key (i : ImageItem) : Uuid × Nat := (i.operation, i.ordinal)

/-- An attempt that found its operation published. -/
def Attempt.Fits (w : Site) (a : Attempt) : Prop :=
  ∀ stored, a.published = .ok (some stored) → stored ∈ w.operations ∧ stored.id = a.operation

/-- `kept` are rows that have reached their end. -/
structure Inv (kept : List ImageItem) (s : Site × List Record) (waiting : List Job) : Prop where
  keyed : s.1.items.Pairwise fun i j => i.key ≠ j.key
  owned : ∀ i ∈ s.1.items, ∃ o ∈ s.1.operations, o.id = i.operation
  exact : RemovalsExact s.2
  seen : ∀ i ∈ s.1.items, i.status = .removed → Seen s.2 i
  lasting : ∀ i ∈ kept, i ∈ s.1.items
  attempts : ∀ a, .apply a ∈ waiting → a.Fits s.1

variable {log : List Record} {i : ImageItem} {w : Site} {operation : Uuid} {ordinal : Nat}
  {f : ItemStatus → ItemStatus}

theorem Seen.cons (h : Seen log i) (e : Record) : Seen (e :: log) i :=
  h.imp fun _ ⟨hmem, hstarted⟩ => ⟨List.mem_cons_of_mem _ hmem, hstarted⟩

variable {e : Record}

theorem Locked.cons (h : Locked log) (he : e.call ≠ .lockCatalog) : Locked (e :: log) := by
  obtain ⟨w, w', between, locking, former, rfl, hruns, hbetween⟩ := h
  exact ⟨w, w', e :: between, locking, former, rfl, hruns, List.forall_mem_cons.mpr ⟨he, hbetween⟩⟩

theorem Rebuilt.cons {current : ImagePlan} (h : Rebuilt log current)
    (he : e.call ≠ .lockCatalog) : Rebuilt (e :: log) current := by
  obtain ⟨resuming, app, w, w', after, planning, earlier, rfl, hlocked, hruns, hafter⟩ := h
  exact ⟨resuming, app, w, w', e :: after, planning, earlier, rfl, hlocked, hruns,
    List.forall_mem_cons.mpr ⟨he, hafter⟩⟩

theorem removalsExact_cons (he : ∀ id, e.call ≠ .remove id)
    (h : RemovalsExact log) : RemovalsExact (e :: log) :=
  ⟨fun id heq => absurd heq (he id), h⟩

/-! ## What the calls do to the tables -/

/-- The changes of the tables by the calls that need no care. -/
inductive Changed (w : Site) : Site → Prop where
  | same {w' : Site} (items : w'.items = w.items) (operations : w'.operations = w.operations) :
      Changed w w'
  | published {w' : Site} (operation : Uuid) (token : Option String)
      (selected : List ImageCandidate) (fresh : ∀ o ∈ w.operations, o.id ≠ operation)
      (items : w'.items = w.items ++ Site.newItems operation selected)
      (operations : w'.operations = w.operations ++ [⟨operation, token, selected⟩]) : Changed w w'
  | started {w' : Site} (operation : Uuid) (ordinal : Nat)
      (items : w' = w.setItem operation ordinal fun s => if s.terminal then s else .started) :
      Changed w w'

/-- The calls that need no care. -/
def Call.ordinary : Call → Bool
  | .remove _ => false
  | .setStatus _ _ _ => false
  | _ => true

theorem fresh_of_not_has (h : w.hasOperation operation = false) :
    ∀ o ∈ w.operations, o.id ≠ operation := by
  intro o ho heq
  have := List.any_eq_false.mp h o ho
  simp [heq] at this

theorem publish_changed (w : Site) (operation : Uuid) (token : String)
    (selected : List ImageCandidate) (o : Outcome) :
    Changed w (w.publish operation token selected o).2 := by
  unfold Site.publish
  split
  · exact .same rfl rfl
  next hfree =>
    simp only [Bool.or_eq_true, not_or, Bool.not_eq_true] at hfree
    split
    · exact .published operation (some token) selected (fresh_of_not_has hfree.2) rfl rfl
    · exact .same rfl rfl

theorem publishAutomatic_changed (w : Site) (app : Uuid) (selected : List ImageCandidate)
    (o : Outcome) (skip : Nat) : Changed w (w.publishAutomatic app selected o skip).2 := by
  unfold Site.publishAutomatic
  dsimp only
  split
  · exact .same rfl rfl
  next hfree =>
    split
    · exact .published _ none selected (fresh_of_not_has (Bool.not_eq_true _ ▸ hfree)) rfl rfl
    · exact .same rfl rfl

theorem claim_changed (w : Site) (q : Query) (o : Outcome) (skip : Nat) :
    Changed w (w.claim q o skip).2 := by
  unfold Site.claim
  dsimp only
  rcases Ledger.answered_cases o with heq | ⟨result, ledger, -, heq⟩ <;>
    rw [heq] <;> exact .same rfl rfl

theorem insertPreview_changed (w : Site) (row : ImagePreview) (o : Outcome) :
    Changed w (w.insertPreview row o).2 := by
  unfold Site.insertPreview
  split
  · exact .same rfl rfl
  · dsimp only
    split <;> exact .same rfl rfl

theorem markStarted_changed (w : Site) (operation : Uuid) (ordinal : Nat) (o : Outcome) :
    Changed w (w.markStarted operation ordinal o).2 := by
  unfold Site.markStarted
  split
  · exact .started operation ordinal rfl
  · exact .same rfl rfl

theorem act_changed (w : Site) : ∀ (e : Call) (c : Choice e), e.ordinary = true →
    Changed w (siteWorld.act w e c).2
  | .claim q, (o, skip), _ => claim_changed w q o skip
  | .publish operation token selected, o, _ => publish_changed w operation token selected o
  | .publishAutomatic app selected, (o, skip), _ => publishAutomatic_changed w app selected o skip
  | .insertPreview row, o, _ => insertPreview_changed w row o
  | .markStarted operation ordinal, o, _ => markStarted_changed w operation ordinal o
  | .finish .., o, _ | .markInterrupted .., o, _ | .interruptPending, o, _
  | .complete .., o, _ => by
    show Changed w (if o.applied then _ else w)
    split <;> exact .same rfl rfl
  | .validateOperations, _, _ | .imageProtectionInventory, _, _ | .cleanupTombstones, _, _
  | .unfinishedOperations, _, _ | .tombstoneReleases, _, _ | .countCleaned, _, _
  | .cleanedPage .., _, _ | .cleanupItem .., _, _ | .commit, _, _ | .formerAttempts .., _, _
  | .allContainers, _, _ | .inspect .., _, _ | .lockCatalog, _, _ | .tryApp .., _, _
  | .tryCompose, _, _ | .nowUtc, _, _ | .randomToken, _, _ | .preview .., _, _
  | .published .., _, _ | .items .., _, _ | .policyEnabled .., _, _ | .pendingAutomatic .., _, _
  | .registered .., _, _ | .hasSource .., _, _ | .authorization .., _, _ | .planOf .., _, _ =>
    .same rfl rfl

/-! ## Updating one item -/

theorem setItem_mem (h : i ∈ (w.setItem operation ordinal f).items) :
    ∃ j ∈ w.items, (j.key = (operation, ordinal) ∧ i = { j with status := f j.status })
      ∨ (j.key ≠ (operation, ordinal) ∧ i = j) := by
  obtain ⟨j, hj, heq⟩ := List.mem_map.mp h
  refine ⟨j, hj, ?_⟩
  split at heq
  next hkey => exact .inl ⟨Prod.ext hkey.1 hkey.2, heq.symm⟩
  next hkey =>
    refine .inr ⟨fun hsame => hkey ?_, heq.symm⟩
    exact ⟨congrArg Prod.fst hsame, congrArg Prod.snd hsame⟩

theorem setItem_other (h : i ∈ w.items) (hkey : i.key ≠ (operation, ordinal)) :
    i ∈ (w.setItem operation ordinal f).items := by
  refine List.mem_map.mpr ⟨i, h, if_neg ?_⟩
  exact fun hsame => hkey (Prod.ext hsame.1 hsame.2)

theorem setItem_same (h : i ∈ w.items) (hkey : i.key = (operation, ordinal)) :
    { i with status := f i.status } ∈ (w.setItem operation ordinal f).items := by
  refine List.mem_map.mpr ⟨i, h, if_pos ?_⟩
  exact ⟨congrArg Prod.fst hkey, congrArg Prod.snd hkey⟩

theorem setItem_keyed (h : w.items.Pairwise fun i j => i.key ≠ j.key)
    (operation : Uuid) (ordinal : Nat) (f : ItemStatus → ItemStatus) :
    (w.setItem operation ordinal f).items.Pairwise fun i j => i.key ≠ j.key := by
  have hkey : ∀ i : ImageItem,
      (if i.operation = operation ∧ i.ordinal = ordinal then { i with status := f i.status }
        else i).key = i.key := by
    intro i
    split <;> rfl
  refine List.pairwise_map.mpr (h.imp fun hne => ?_)
  rw [hkey, hkey]
  exact hne

/-! ## Every ordinary call keeps the invariant -/

section Calls

variable {kept : List ImageItem} {s : Site × List Record} {waiting : List Job} {w' : Site}

theorem Inv.same (h : Inv kept s waiting) (hitems : w'.items = s.1.items)
    (hoperations : w'.operations = s.1.operations) (he : ∀ id, e.call ≠ .remove id) :
    Inv kept (w', e :: s.2) waiting where
  keyed := hitems ▸ h.keyed
  owned := by
    rw [hitems, hoperations]
    exact h.owned
  exact := removalsExact_cons he h.exact
  seen := by
    rw [hitems]
    exact fun i hi hremoved => (h.seen i hi hremoved).cons e
  lasting := by
    rw [hitems]
    exact h.lasting
  attempts a ha stored hstored := by
    rw [hoperations]
    exact h.attempts a ha stored hstored

variable {selected : List ImageCandidate}

theorem newItems_mem (h : i ∈ Site.newItems operation selected) :
    i.operation = operation ∧ i.status = .planned := by
  obtain ⟨⟨candidate, ordinal⟩, -, rfl⟩ := List.mem_map.mp h
  exact ⟨rfl, rfl⟩

theorem newItems_keyed (operation : Uuid) (selected : List ImageCandidate) :
    (Site.newItems operation selected).Pairwise fun i j => i.key ≠ j.key := by
  have hordinals : (selected.zipIdx.map Prod.snd).Nodup := by
    rw [List.zipIdx_map_snd]
    exact List.nodup_range'
  refine List.pairwise_map.mpr ((List.pairwise_map.mp hordinals).imp ?_)
  intro a b hne heq
  exact hne (Prod.mk.inj (show (operation, a.2) = (operation, b.2) from heq)).2

theorem Inv.published (h : Inv kept s waiting) {operation : Uuid}
    {token : Option String}
    (hfresh : ∀ o ∈ s.1.operations, o.id ≠ operation)
    (hitems : w'.items = s.1.items ++ Site.newItems operation selected)
    (hoperations : w'.operations = s.1.operations ++ [⟨operation, token, selected⟩])
    (he : ∀ id, e.call ≠ .remove id) : Inv kept (w', e :: s.2) waiting where
  keyed := by
    rw [hitems]
    refine List.pairwise_append.mpr ⟨h.keyed, newItems_keyed operation selected, ?_⟩
    -- the rows there belong to operations that were there
    intro i hi j hj heq
    obtain ⟨o, ho, hid⟩ := h.owned i hi
    refine hfresh o ho ?_
    rw [hid, ← (newItems_mem hj).1]
    exact congrArg Prod.fst heq
  owned := by
    rw [hitems, hoperations]
    intro i hi
    rcases List.mem_append.mp hi with hi | hi
    · exact (h.owned i hi).imp fun o ho => ⟨List.mem_append_left _ ho.1, ho.2⟩
    · exact ⟨_, List.mem_append_right _ (List.mem_singleton.mpr rfl), (newItems_mem hi).1.symm⟩
  exact := removalsExact_cons he h.exact
  seen := by
    rw [hitems]
    intro i hi hremoved
    rcases List.mem_append.mp hi with hi | hi
    · exact (h.seen i hi hremoved).cons e
    · rw [(newItems_mem hi).2] at hremoved
      cases hremoved
  lasting := by
    rw [hitems]
    exact fun i hi => List.mem_append_left _ (h.lasting i hi)
  attempts a ha stored hstored := by
    obtain ⟨hmem, hid⟩ := h.attempts a ha stored hstored
    rw [hoperations]
    exact ⟨List.mem_append_left _ hmem, hid⟩

/-- All of them are done with. -/
abbrev AllEnded (items : List ImageItem) : Prop := ∀ i ∈ items, i.status.terminal = true

theorem Inv.started (h : Inv kept s waiting) (hkept : AllEnded kept)
    (operation : Uuid) (ordinal : Nat) (he : ∀ id, e.call ≠ .remove id) :
    Inv kept (s.1.setItem operation ordinal fun s => if s.terminal then s else .started,
      e :: s.2) waiting where
  keyed := setItem_keyed h.keyed ..
  owned i hi := by
    obtain ⟨j, hj, ⟨-, rfl⟩ | ⟨-, rfl⟩⟩ := setItem_mem hi
    · exact h.owned j hj
    · exact h.owned i hj
  exact := removalsExact_cons he h.exact
  seen i hi hremoved := by
    obtain ⟨j, hj, ⟨-, rfl⟩ | ⟨-, rfl⟩⟩ := setItem_mem hi
    · -- only a row that was removed before is one now
      have hbefore : j.status = .removed := by
        split at hremoved
        · exact hremoved
        · cases hremoved
      exact (h.seen j hj hbefore).cons e
    · exact (h.seen i hj hremoved).cons e
  lasting i hi := by
    by_cases hkey : i.key = (operation, ordinal)
    · have hmem := setItem_same (f := fun s => if s.terminal then s else .started)
        (h.lasting i hi) hkey
      rwa [if_pos (hkept i hi)] at hmem
    · exact setItem_other (h.lasting i hi) hkey
  attempts := h.attempts

theorem Inv.changed (h : Inv kept s waiting) (hkept : AllEnded kept)
    (hchanged : Changed s.1 w') (he : ∀ id, e.call ≠ .remove id) :
    Inv kept (w', e :: s.2) waiting := by
  cases hchanged with
  | same hitems hoperations => exact h.same hitems hoperations he
  | published operation token selected hfresh hitems hoperations =>
    exact h.published hfresh hitems hoperations he
  | started operation ordinal heq =>
    rw [heq]
    exact h.started hkept operation ordinal he

theorem Inv.ordinary (h : Inv kept s waiting) (hkept : AllEnded kept)
    {e : Call} (he : e.ordinary = true) (c : Choice e) :
    Inv kept (siteWorld.traced.act s e c).2 waiting := by
  refine h.changed hkept (act_changed s.1 e c he) fun id heq => ?_
  rw [show e = .remove id from heq] at he
  cases he

end Calls

end SoloDock.Images
