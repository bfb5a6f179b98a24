import SoloDock.Images.Tables

/-!
# Removals are exact

Every history of image cleanups: previews, confirmed cleanups and retention passes, given up
or cut off by a crash at any call, resumed, and with any answer of Docker. The program makes
its careful calls only in states that allow them (`Ready`, `Row`), so the invariant of the
tables holds throughout, and with it what is to be shown (`image_removal_exact`).
-/

namespace SoloDock.Images

open Lib Mutation Docker Cleanup Lib.Prog Lib.World

/-- Whatever is answered, the invariant holds after each call and `Q` at the end. -/
abbrev Safely {ε α : Type} (kept : List ImageItem) (waiting : List Job)
    (p : Prog Call Answer ε α) (Q : Except ε α → Site × List Record → Prop)
    (s : Site × List Record) : Prop :=
  siteWorld.traced.wp (fun _ _ _ => True) (Inv kept · waiting) p Q s

/-- The items of an operation may be worked on; `current` has no more candidates than the
plan that was made. -/
structure Ready (kept : List ImageItem) (waiting : List Job) (operation : Uuid)
    (selected : List ImageCandidate) (current : ImagePlan) (s : Site × List Record) : Prop where
  inv : Inv kept s waiting
  rebuilt : ∃ plan, Rebuilt s.2 plan ∧ current.candidates ⊆ plan.candidates
  published : ∃ o ∈ s.1.operations, o.id = operation ∧ o.plan = selected

/-- The row of an item. -/
structure Row (operation : Uuid) (selected : List ImageCandidate) (ordinal : Nat)
    (row : ImageItem) (candidate : ImageCandidate) (w : Site) : Prop where
  mem : row ∈ w.items
  key : row.key = (operation, ordinal)
  image : row.imageId = candidate.imageId
  item : selected[ordinal]? = some candidate

/-- The other rows stay as they are. -/
def Spared (operation : Uuid) (ordinal : Nat) (w w' : Site) : Prop :=
  ∀ i ∈ w.items, i.key ≠ (operation, ordinal) → i ∈ w'.items

variable {w w' : Site}

theorem Spared.trans {operation : Uuid} {ordinal : Nat} {w'' : Site}
    (h : Spared operation ordinal w w') (h' : Spared operation ordinal w' w'') :
    Spared operation ordinal w w'' :=
  fun i hi hkey => h' i (h i hi hkey) hkey

theorem Changed.operations_subset (h : Changed w w') : w.operations ⊆ w'.operations := by
  cases h with
  | same _ hoperations => exact hoperations ▸ List.Subset.refl _
  | published operation token selected _ _ hoperations =>
    exact hoperations ▸ List.subset_append_left _ _
  | started operation ordinal heq => exact heq ▸ List.Subset.refl _

section Items

variable {kept : List ImageItem} {waiting : List Job} {operation : Uuid}
  {selected : List ImageCandidate} {current : ImagePlan} {s : Site × List Record} {ordinal : Nat}
  {row : ImageItem} {candidate : ImageCandidate}

theorem Ready.ordinary (h : Ready kept waiting operation selected current s)
    (hkept : AllEnded kept) {e : Call} (he : e.ordinary = true)
    (hlock : e ≠ .lockCatalog) (c : Choice e) :
    Ready kept waiting operation selected current (siteWorld.traced.act s e c).2 where
  inv := h.inv.ordinary hkept he c
  rebuilt := h.rebuilt.imp fun _ hplan => ⟨hplan.1.cons hlock, hplan.2⟩
  published :=
    h.published.imp fun _ ho => ⟨(act_changed s.1 e c he).operations_subset ho.1, ho.2⟩

/-! ## The end of an item -/

theorem Inv.recorded (h : Inv kept s waiting) (hkept : AllEnded kept)
    (hmem : row ∈ s.1.items) (hkey : row.key = (operation, ordinal))
    (hopen : row.status.terminal = false) {status : ItemStatus}
    (hseen : status = .removed → Seen s.2 row) {e : Record} (he : ∀ id, e.call ≠ .remove id) :
    Inv kept (s.1.setItem operation ordinal fun _ => status, e :: s.2) waiting where
  keyed := setItem_keyed h.keyed ..
  owned i hi := by
    obtain ⟨j, hj, ⟨-, rfl⟩ | ⟨-, rfl⟩⟩ := setItem_mem hi
    · exact h.owned j hj
    · exact h.owned i hj
  exact := removalsExact_cons he h.exact
  seen i hi hremoved := by
    obtain ⟨j, hj, ⟨hjkey, rfl⟩ | ⟨-, rfl⟩⟩ := setItem_mem hi
    · obtain rfl := eq_of_key_eq h.keyed hj hmem (hjkey.trans hkey.symm)
      exact (hseen hremoved).cons e
    · exact (h.seen i hj hremoved).cons e
  lasting i hi := by
    refine setItem_other (h.lasting i hi) fun hikey => ?_
    -- a row that has reached its end is not the open one
    obtain rfl := eq_of_key_eq h.keyed (h.lasting i hi) hmem (hikey.trans hkey.symm)
    rw [hkept i hi] at hopen
    cases hopen
  attempts := h.attempts

/-! ## A removal -/

theorem stillFits_true {observed : CleanupImage}
    (h : stillFits current candidate observed = .ok true) :
    candidate ∈ current.candidates ∧ observed.image.id = candidate.imageId.value
      ∧ matchesInspect candidate.identity observed = .ok true := by
  unfold stillFits at h
  split at h
  · cases h
  next hguard =>
    simp only [Bool.or_eq_true, Bool.not_eq_true', not_or, Bool.not_eq_false,
      List.contains_iff_mem, bne_iff_ne, ne_eq, Classical.not_not] at hguard
    split at h
    next found hfound =>
      cases h
      exact ⟨hguard.1, hguard.2, hfound⟩
    · cases h

section

variable (hkept : AllEnded kept) (h : Ready kept waiting operation selected current s)
  (hrow : Row operation selected ordinal row candidate s.1)

include hrow

theorem Row.started (hopen : row.status.terminal = false) :
    Row operation selected ordinal { row with status := .started } candidate
      (s.1.setItem operation ordinal fun s => if s.terminal then s else .started) := by
  refine ⟨?_, hrow.key, hrow.image, hrow.item⟩
  have hmem := setItem_same (f := fun s => if s.terminal then s else .started) hrow.mem hrow.key
  rwa [if_neg (by simp [hopen])] at hmem

theorem row_eq (hstarted : row.status = .started) :
    row = ⟨operation, ordinal, candidate.imageId, .started⟩ := by
  obtain ⟨op, ord, image, status⟩ := row
  obtain ⟨rfl, rfl⟩ := Prod.mk.inj hrow.key
  rw [show image = candidate.imageId from hrow.image, show status = .started from hstarted]

theorem seen_of_absent (hstarted : row.status = .started) :
    Seen (⟨s.1, .inspect candidate.imageId, .ok none⟩ :: s.2) row := by
  refine ⟨s.1, ?_, ?_⟩
  · rw [hrow.image]
    exact List.mem_cons_self
  · have hmem := hrow.mem
    rw [row_eq hrow hstarted] at hmem ⊢
    exact hmem

include hkept h

theorem recordItem_safe (hopen : row.status.terminal = false)
    {status : ItemStatus} (hseen : status = .removed → Seen s.2 row) :
    Safely kept waiting (recordItem operation ordinal status)
      (fun _ s' => Ready kept waiting operation selected current s'
        ∧ Spared operation ordinal s.1 s'.1) s := by
  refine wp_call fun outcome _ => ?_
  rw [wp_accept]
  have hrebuilt : ∀ e : Record, e.call ≠ .lockCatalog →
      ∃ plan, Rebuilt (e :: s.2) plan ∧ current.candidates ⊆ plan.candidates :=
    fun e he => h.rebuilt.imp fun _ hplan => ⟨hplan.1.cons he, hplan.2⟩
  have hready : Ready kept waiting operation selected current
      (siteWorld.traced.act s (.setStatus operation ordinal status) outcome).2
      ∧ Spared operation ordinal s.1
        (siteWorld.traced.act s (.setStatus operation ordinal status) outcome).2.1 := by
    show Ready _ _ _ _ _ ((if outcome.applied then _ else s.1), _ :: s.2)
      ∧ Spared _ _ _ (if outcome.applied then _ else s.1)
    split
    · refine ⟨⟨?_, hrebuilt _ (by simp), h.published⟩, fun i hi hkey => setItem_other hi hkey⟩
      exact h.inv.recorded hkept hrow.mem hrow.key hopen hseen (by simp)
    · exact ⟨⟨h.inv.same rfl rfl (by simp), hrebuilt _ (by simp), h.published⟩, fun i hi _ => hi⟩
  exact ⟨hready.1.inv, hready⟩

theorem verifyRemoved_safe (hstarted : row.status = .started) :
    Safely kept waiting (verifyRemoved operation ordinal candidate)
      (fun _ s' => Ready kept waiting operation selected current s'
        ∧ Spared operation ordinal s.1 s'.1) s := by
  refine wp_call fun answer _ => ?_
  have hready := h.ordinary hkept (e := .inspect candidate.imageId) rfl (by simp) answer
  refine ⟨hready.inv, wp_orElse_bind (fun observed hanswer => ?_) fun _ _ => ?_⟩
  · refine recordItem_safe hkept hready hrow (by rw [hstarted]; rfl) fun hremoved => ?_
    -- the end is `removed` only if nothing was found
    obtain rfl : observed = none := by
      cases observed with
      | none => rfl
      | some found => cases hremoved
    have hanswer : answer = .ok none := hanswer
    rw [hanswer]
    exact seen_of_absent hrow hstarted
  · exact ⟨hready, fun i hi _ => hi⟩

theorem removeItem_safe (hopen : row.status.terminal = false) {observed : CleanupImage}
    (hinspected : ∃ w former, s.2 = ⟨w, .inspect candidate.imageId, .ok (some observed)⟩ :: former)
    (hplanned : candidate ∈ current.candidates) (hfits : observed.image.id = candidate.imageId.value
      ∧ matchesInspect candidate.identity observed = .ok true) :
    Safely kept waiting (removeItem operation ordinal candidate)
      (fun _ s' => Ready kept waiting operation selected current s'
        ∧ Spared operation ordinal s.1 s'.1) s := by
  refine wp_call fun outcome _ => ?_
  have hready := h.ordinary hkept (e := .markStarted operation ordinal) rfl (by simp) outcome
  have hspared : Spared operation ordinal s.1
      (siteWorld.traced.act s (.markStarted operation ordinal) outcome).2.1 := by
    show Spared _ _ _ (if outcome.applied then _ else s.1)
    split
    · exact fun i hi hkey => setItem_other hi hkey
    · exact fun i hi _ => hi
  refine ⟨hready.inv, wp_accept_bind (fun u hanswer => ?_) fun _ _ => ⟨hready, hspared⟩⟩
  -- the mark was reported as made, so it is
  obtain rfl : outcome = .ok := by
    cases outcome with
    | ok => rfl
    | failed applied => cases hanswer
  have hstarted := hrow.started (s := s) hopen
  refine wp_call fun answer _ => ?_
  have hexact : ∃ operation' ordinal' candidate' current' observed',
      ExactRemoval (s.1.setItem operation ordinal fun s => if s.terminal then s else .started)
        (⟨s.1, .markStarted operation ordinal, .ok ()⟩ :: s.2) candidate.imageId operation' ordinal'
        candidate' current' observed' := by
    obtain ⟨w, former, hlog⟩ := hinspected
    obtain ⟨plan, hrebuilt, hsubset⟩ := hready.rebuilt
    refine ⟨operation, ordinal, candidate, plan, observed, ?_, ?_, rfl, hrebuilt,
      hsubset hplanned, ⟨s.1, w, former, by rw [hlog]⟩, hfits⟩
    · rw [← row_eq (s := (_, s.2)) hstarted rfl]
      exact hstarted.mem
    · obtain ⟨o, ho, hid, hplan⟩ := h.published
      exact ⟨o, ho, hid, hplan ▸ hrow.item⟩
  have hafter : Ready kept waiting operation selected current (siteWorld.traced.act
        (siteWorld.traced.act s (.markStarted operation ordinal) .ok).2
        (.remove candidate.imageId) answer).2 := by
    refine ⟨⟨hready.inv.keyed, hready.inv.owned, ⟨?_, hready.inv.exact⟩, ?_, hready.inv.lasting,
      hready.inv.attempts⟩, ?_, hready.published⟩
    · intro id heq
      cases heq
      exact hexact
    · exact fun i hi hremoved => (hready.inv.seen i hi hremoved).cons _
    · exact hready.rebuilt.imp fun _ hplan => ⟨hplan.1.cons (by simp), hplan.2⟩
  refine ⟨hafter.inv, ?_⟩
  have hanswer : (siteWorld.traced.act
      (siteWorld.traced.act s (.markStarted operation ordinal) .ok).2
      (.remove candidate.imageId) answer).1 = answer := rfl
  rw [hanswer]
  cases answer with
  | error err => exact ⟨hafter, hspared⟩
  | ok result =>
    cases result with
    | retained =>
      refine wp_mono (recordItem_safe hkept hafter hstarted rfl fun heq => by cases heq) ?_
      exact fun _ _ hpost => ⟨hpost.1, hspared.trans hpost.2⟩
    | accepted =>
      refine wp_mono (verifyRemoved_safe hkept hafter hstarted rfl) ?_
      exact fun _ _ hpost => ⟨hpost.1, hspared.trans hpost.2⟩

/-! ## The items in their order -/

theorem executeItem_safe : Safely kept waiting (executeItem operation current ordinal row candidate)
      (fun _ s' => Ready kept waiting operation selected current s'
        ∧ Spared operation ordinal s.1 s'.1) s := by
  refine wp_if (fun _ => ⟨h, fun i hi _ => hi⟩) fun hterminal => ?_
  have hopen : row.status.terminal = false := by simpa using hterminal
  refine wp_call fun answer _ => ?_
  have hready := h.ordinary hkept (e := .inspect candidate.imageId) rfl (by simp) answer
  refine ⟨hready.inv, ?_⟩
  have hanswer : (siteWorld.traced.act s (.inspect candidate.imageId) answer).1 = answer := rfl
  rw [hanswer]
  cases answer with
  | error err => exact ⟨hready, fun i hi _ => hi⟩
  | ok image =>
    cases image with
    | none =>
      refine recordItem_safe hkept hready hrow hopen fun hremoved => ?_
      have hstarted : row.status = .started := by
        split at hremoved
        · assumption
        · cases hremoved
      exact seen_of_absent hrow hstarted
    | some observed =>
      refine wp_accept_bind (fun fits hfits => ?_) fun _ _ => ⟨hready, fun i hi _ => hi⟩
      cases fits with
      | true =>
        obtain ⟨hplanned, hfits⟩ := stillFits_true hfits
        exact removeItem_safe hkept hready hrow hopen ⟨_, _, rfl⟩ hplanned hfits
      | false => exact recordItem_safe hkept hready hrow hopen fun heq => by cases heq

end

/-- The rows from `ordinal` on. -/
def Rows (operation : Uuid) (selected : List ImageCandidate) (ordinal : Nat)
    (pairs : List (ImageItem × ImageCandidate)) (w : Site) : Prop :=
  ∀ k row candidate, pairs[k]? = some (row, candidate) →
    Row operation selected (ordinal + k) row candidate w

theorem executeItems_safe (hkept : AllEnded kept) {pairs : List (ImageItem × ImageCandidate)}
    (h : Ready kept waiting operation selected current s)
    (hrows : Rows operation selected ordinal pairs s.1) :
    Safely kept waiting (executeItems operation current ordinal pairs)
      (fun _ s' => Ready kept waiting operation selected current s') s := by
  induction pairs generalizing ordinal s with
  | nil => exact h
  | cons pair rest ih =>
    obtain ⟨row, candidate⟩ := pair
    refine wp_part (executeItem_safe hkept h (hrows 0 row candidate rfl)) ?_ ?_
    · intro _ s' ⟨hready, hspared⟩
      refine ih hready fun k row' candidate' hget => ?_
      have hrow' := hrows (k + 1) row' candidate' hget
      rw [Nat.add_right_comm, Nat.add_assoc] at *
      refine ⟨hspared row' hrow'.mem ?_, hrow'.key, hrow'.image, hrow'.item⟩
      -- the rows that follow have larger ordinals
      intro hkey
      have heq := (Prod.mk.inj (hrow'.key.symm.trans hkey)).2
      omega
    · exact fun _ s' hpost => hpost.1

variable {o : Outcome}

theorem rows_of_ledger (h : ledgerFits (w.itemsOf operation) selected = true) :
    Rows operation selected 0 ((w.itemsOf operation).zip selected) w := by
  intro k row candidate hget
  rw [Nat.zero_add]
  unfold ledgerFits at h
  rw [Bool.and_eq_true, List.all_eq_true] at h
  have hfits := h.2 ((row, candidate), k) (List.mk_mem_zipIdx_iff_getElem?.mpr hget)
  simp only [Bool.and_eq_true, beq_iff_eq] at hfits
  obtain ⟨hrow, hcandidate⟩ := List.getElem?_zip_eq_some.mp hget
  obtain ⟨hmem, hoperation⟩ := List.mem_filter.mp (List.mem_of_getElem? hrow)
  exact ⟨hmem, Prod.ext (beq_iff_eq.mp hoperation) hfits.1, hfits.2, hcandidate⟩

theorem ordinary_safe (hkept : AllEnded kept)
    {p : Prog Call Answer ε α} (hp : p.Only fun e => e.ordinary = true)
    (h : Inv kept s waiting) : Safely kept waiting p (fun _ s' => Inv kept s' waiting) s :=
  wp_of_only hp (fun _ _ c he _ hs => hs.ordinary hkept he c) (fun _ hs => hs) h

theorem terminalResult_ordinary (operation : Uuid) (plan : List ImageCandidate) :
    (terminalResult operation plan).Only fun e => e.ordinary = true := by
  refine only_call rfl fun _ => only_orElse_bind fun rows => only_bind (only_ensure ..) fun _ => ?_
  split <;> trivial

theorem executeImages_safe (hkept : AllEnded kept)
    (h : Ready kept waiting operation selected current s) :
    Safely kept waiting (executeImages operation selected current)
      (fun _ s' => Inv kept s' waiting) s := by
  refine wp_call fun readable _ => ?_
  have hready := h.ordinary hkept (e := .items operation) rfl (by simp) readable
  refine ⟨hready.inv, wp_accept_bind (fun rows hrows => ?_) fun _ _ => hready.inv⟩
  refine wp_ensure_bind (fun hfits => ?_) fun _ => hready.inv
  obtain rfl : s.1.itemsOf operation = rows := Except.ok.inj (readAs_ok hrows)
  refine wp_part (executeItems_safe hkept hready (rows_of_ledger hfits)) ?_ ?_
  · intro _ s' hready'
    refine wp_part (ordinary_safe hkept (terminalResult_ordinary ..) hready'.inv) ?_ ?_
    · exact fun _ _ hinv => (wp_orStop ..).mpr ⟨fun _ _ => hinv, fun _ => hinv⟩
    · exact fun _ _ hinv => hinv
  · exact fun _ _ hready' => hready'.inv

/-! ## The locks and the plan -/

theorem tryApps_ordinary {apps : List Uuid} : (tryApps apps).Only fun e => e.ordinary = true := by
  induction apps with
  | nil => trivial
  | cons app rest ih =>
    exact only_call rfl fun _ => only_bind (only_ensure ..) fun _ => ih

theorem lockAll_ordinary : lockAll.Only fun e => e.ordinary = true :=
  only_call rfl fun _ =>
    only_call rfl fun _ =>
      only_orElse_bind fun _ => only_bind tryApps_ordinary fun _ =>
        only_call rfl fun _ => only_ensure ..

theorem lockAll_safe (hkept : AllEnded kept) (h : Inv kept s waiting) : Safely kept waiting lockAll
      (fun r s' => Inv kept s' waiting ∧ (r = .ok () → Locked s'.2)) s := by
  refine wp_mono (wp_runs (ordinary_safe hkept lockAll_ordinary h)) ?_
  intro r s' ⟨hinv, locking, hlog, hruns⟩
  refine ⟨hinv, fun hok => ?_⟩
  rw [hok] at hruns
  exact ⟨s.1, s'.1, [], locking, s.2, hlog, hruns, fun _ he => (List.not_mem_nil he).elim⟩

theorem ordinary_of_reads {e : Call} (h : e.reads = true) :
    e.ordinary = true ∧ e ≠ .lockCatalog := by
  cases e <;> first | cases h; done | exact ⟨rfl, by simp⟩

theorem reads_of_offline (e : Call) (h : e.offline) : e.reads = true := by
  cases e <;> first | rfl | cases h

theorem reads_of_looks (e : Call) (h : e.looks) : e.reads = true := by
  cases e <;> first | rfl | cases h

theorem inspectImage_reads {id : ExactImageId} : (inspectImage id).Only fun e => e.reads = true :=
  only_call rfl fun _ =>
    only_orElse_bind fun _ => only_orStop ..

theorem observeIndex_reads (c : ContainerRecord) (asked : ExactImageId) (index : CleanupImage) :
    (observeIndex c asked index).Only fun e => e.reads = true :=
  only_bind (only_ensure ..) fun _ => only_bind (only_orStop ..) fun _ =>
    only_bind (only_orStop ..) fun _ => only_orElse_bind fun _ =>
      only_bind (only_ensure ..) fun _ => only_bind inspectImage_reads fun _ =>
        only_orElse_bind fun _ => only_bind (only_ensure ..)
          fun _ => trivial

theorem observeContainer_reads (c : ContainerRecord) :
    (observeContainer c).Only fun e => e.reads = true := by
  refine only_bind (only_orStop ..) fun _ => only_orElse_bind fun _ =>
    only_bind inspectImage_reads fun observed => only_bind (only_orElse ..)
      fun _ => only_orElse_bind fun _ => ?_
  split
  · exact only_bind (observeIndex_reads ..) fun _ => trivial
  · exact only_orElse_bind fun _ => trivial

theorem observeContainers_reads {containers : List ContainerRecord} :
    (observeContainers containers).Only fun e => e.reads = true := by
  induction containers with
  | nil => trivial
  | cons c rest ih =>
    exact only_bind (observeContainer_reads c) fun _ => only_bind ih fun _ => trivial

theorem listContainers_reads : listContainers.Only fun e => e.reads = true :=
  only_call rfl fun _ => only_orElse_bind fun _ =>
    only_orElse_bind fun _ => only_bind observeContainers_reads
      fun _ => trivial

theorem buildScopedPlan_reads (resuming app : Option Uuid) :
    (buildScopedPlan resuming app).Only fun e => e.reads = true := by
  have hread : ∀ {α : Type} {e : Call} {k : Answer e → Planner α}, e.reads = true →
      (∀ answer, (k answer).Only fun e => e.reads = true) →
      (Prog.ask e >>= k).Only fun e => e.reads = true :=
    fun he hk => only_bind ((only_ask _).mpr he) hk
  have haccept : ∀ {α β : Type} {x : Except CleanupError α} {k : α → Planner β},
      (∀ a, (k a).Only fun e => e.reads = true) →
      (Prog.accept x >>= k).Only fun e => e.reads = true :=
    fun hk => only_bind (only_orElse ..) hk
  refine hread rfl fun _ => haccept fun _ => hread rfl fun _ => haccept fun inventory =>
    hread rfl fun _ => haccept fun tombstones => hread rfl fun _ => haccept fun operations =>
      hread rfl fun _ => haccept fun buried => ?_
  refine only_bind ((scanCleaned_offline ..).mono reads_of_offline) fun scan =>
    only_bind listContainers_reads fun (containers, references) =>
      only_bind ((considerRecords_looks ..).mono reads_of_looks) fun chosen =>
        only_bind ((schedule_looks ..).mono reads_of_looks) fun _ => trivial

theorem buildScopedPlan_safe (hkept : AllEnded kept)
    (h : Inv kept s waiting) (hlocked : Locked s.2) {resuming app : Option Uuid} :
    Safely kept waiting (buildScopedPlan resuming app)
      (fun r s' => Inv kept s' waiting ∧ ∀ current, r = .ok current → Rebuilt s'.2 current) s := by
  have honly := buildScopedPlan_reads resuming app
  refine wp_mono (wp_runs (ordinary_safe hkept
    (honly.mono fun e he => (ordinary_of_reads he).1) h)) ?_
  intro r s' ⟨hinv, planning, hlog, hruns⟩
  refine ⟨hinv, fun current hok => ?_⟩
  rw [hok] at hruns
  refine ⟨resuming, app, s.1, s'.1, [], planning, s.2, hlog, hlocked, hruns, ?_⟩
  exact fun e he => (ordinary_of_reads (hruns.calls honly e he)).2

/-! ## Confirmed cleanups -/

theorem publish_ok {token : String} (h : (w.publish operation token selected o).1 = .ok ()) :
    ⟨operation, some token, selected⟩ ∈ (w.publish operation token selected o).2.operations := by
  unfold Site.publish at h ⊢
  split
  next hguard =>
    rw [if_pos hguard] at h
    cases h
  next hguard =>
    rw [if_neg hguard] at h
    cases o with
    | ok => exact List.mem_append_right _ (List.mem_singleton.mpr rfl)
    | failed applied => cases h

theorem publishAutomatic_ok {app : Uuid} {skip : Nat}
    (h : (w.publishAutomatic app selected o skip).1 = .ok operation) :
    ⟨operation, none, selected⟩ ∈ (w.publishAutomatic app selected o skip).2.operations := by
  unfold Site.publishAutomatic at h ⊢
  dsimp only at h ⊢
  split
  next hguard =>
    rw [if_pos hguard] at h
    cases h
  next hguard =>
    rw [if_neg hguard] at h
    cases o with
    | ok =>
      cases h
      exact List.mem_append_right _ (List.mem_singleton.mpr rfl)
    | failed applied => cases h

section

variable (hkept : AllEnded kept)

include hkept

theorem runImages_safe (h : Ready kept waiting operation selected current s) :
    Safely kept waiting (do
        let result ← (executeImages operation selected current).attempt
        Prog.orElse result fun _ => Failure.unknown) (fun _ s' => Inv kept s' waiting) s := by
  refine wp_attempt_bind (executeImages_safe hkept h) fun r s' hinv => ?_
  exact (wp_orElse ..).mpr ⟨fun _ _ => hinv, fun _ _ => hinv⟩

variable {a : Attempt}

theorem publishSelected_safe
    (row : ImagePreview) (h : Inv kept s waiting) (hrebuilt : Rebuilt s.2 current) :
    Safely kept waiting (publishSelected a row selected current) (fun r s' => Inv kept s' waiting
        ∧ (r = .ok () → Ready kept waiting a.operation selected current s')) s := by
  refine wp_ensure_bind (fun _ => ?_) fun _ => ⟨h, fun hok => by cases hok⟩
  refine wp_call fun outcome _ => ?_
  have hinv := h.ordinary hkept
    (e := .publish a.operation a.query.request.token selected) rfl outcome
  refine ⟨hinv, (wp_orElse ..).mpr ⟨fun _ hanswer => ⟨hinv, fun _ => ?_⟩, ?_⟩⟩
  · exact ⟨hinv, ⟨current, hrebuilt.cons (by simp), List.Subset.refl _⟩, _, publish_ok hanswer,
      rfl, rfl⟩
  · exact fun _ _ => ⟨hinv, fun hok => by cases hok⟩

theorem executeLocked_safe {published : Option ImageOperation} (row : ImagePreview)
    (h : Inv kept s waiting)
    (ha : .apply a ∈ waiting) (hpublished : a.published = .ok published)
    (hplan : ∀ stored, published = some stored → stored.plan = selected) :
    Safely kept waiting (executeLocked a published row selected)
      (fun _ s' => Inv kept s' waiting) s := by
  refine wp_attempt_bind (lockAll_safe hkept h) fun locked s1 ⟨hinv, hlocked⟩ => ?_
  refine wp_orElse_bind (fun _ hok => ?_) fun _ _ => hinv
  refine wp_attempt_bind (buildScopedPlan_safe hkept hinv (hlocked hok))
    fun plan s2 ⟨hinv, hrebuilt⟩ => ?_
  refine wp_orElse_bind (fun current hcurrent => ?_) fun _ _ => hinv
  have hrebuilt := hrebuilt current hcurrent
  cases published with
  | none =>
    -- the first execution publishes what was selected
    exact wp_part (publishSelected_safe hkept row hinv hrebuilt)
      (fun _ s3 hpost => runImages_safe hkept (hpost.2 rfl)) fun _ s3 hpost => hpost.1
  | some stored =>
    obtain ⟨hmem, hid⟩ := hinv.attempts a ha stored hpublished
    exact runImages_safe hkept
      ⟨hinv, ⟨current, hrebuilt, List.Subset.refl _⟩, stored, hmem, hid, hplan stored rfl⟩

theorem execute_safe (h : Inv kept s waiting) (ha : .apply a ∈ waiting) :
    Safely kept waiting (execute a) (fun _ s' => Inv kept s' waiting) s := by
  refine wp_orElse_bind (fun published hpublished => ?_) fun _ _ => h
  refine wp_orElse_bind (fun _ _ => ?_) fun _ _ => h
  refine wp_orStop_bind (fun row _ => ?_) fun _ => h
  refine wp_ensure_bind (fun _ => ?_) fun _ => h
  refine wp_orStop_bind (fun selected _ => ?_) fun _ => h
  refine wp_accept_bind (fun _ husable => ?_) fun _ _ => h
  refine executeLocked_safe hkept row h ha hpublished fun stored hstored => ?_
  rw [hstored] at husable
  unfold usable at husable
  dsimp only at husable
  split at husable
  next hsame =>
    simp only [Bool.and_eq_true, beq_iff_eq] at hsame
    exact hsame.1.2
  · cases husable

end

theorem record_ordinary (a : Attempt) (status : Nat) (body : Body) (errorCode : Option String) :
    (record a status body errorCode).Only fun e => e.ordinary = true := by
  refine only_call rfl fun answer => ?_
  split
  · trivial
  · exact only_call rfl fun _ => trivial

theorem apply_safe (hkept : AllEnded kept) {a : Attempt}
    (h : Inv kept s waiting) (ha : .apply a ∈ waiting) :
    Safely kept waiting (apply a) (fun _ s' => Inv kept s' waiting) s := by
  refine wp_attempt_bind (execute_safe hkept h ha) fun r s' hinv => ?_
  split
  · exact ordinary_safe hkept (record_ordinary ..) hinv
  · exact ordinary_safe hkept (record_ordinary ..) hinv
  · exact ordinary_safe hkept (only_call rfl fun _ => trivial) hinv

/-! ## Retention passes -/

theorem runAutomatic_safe (hkept : AllEnded kept)
    (h : Ready kept waiting operation selected current s) :
    Safely kept waiting (runAutomatic operation selected current)
      (fun _ s' => Inv kept s' waiting) s := by
  refine wp_part (executeImages_safe hkept h) (fun result s' hinv => ?_) fun _ _ hinv => hinv
  refine wp_call fun outcome _ => ?_
  have hinv' := hinv.ordinary hkept (e := .complete operation result) rfl outcome
  exact ⟨hinv', wp_accept_bind (fun _ _ => hinv') fun _ _ => hinv'⟩

theorem underPolicy_subset (enabled : Bool) (plan : ImagePlan) :
    (underPolicy enabled plan).candidates ⊆ plan.candidates := by
  cases enabled with
  | true => exact List.Subset.refl _
  | false => exact List.nil_subset _

section

variable (hkept : AllEnded kept)

include hkept

theorem beginAutomatic_safe
    (h : Inv kept s waiting) (hlocked : Locked s.2) (app : Uuid) (enabled : Bool) :
    Safely kept waiting (beginAutomatic app enabled) (fun _ s' => Inv kept s' waiting) s := by
  refine wp_part (buildScopedPlan_safe hkept h hlocked)
    (fun plan s1 ⟨hinv, hrebuilt⟩ => ?_) fun _ _ hpost => hpost.1
  refine wp_if (fun _ => hinv) fun _ => ?_
  refine wp_call fun choice _ => ?_
  obtain ⟨outcome, skip⟩ := choice
  have hinv' := hinv.ordinary hkept
    (e := .publishAutomatic app (underPolicy enabled plan).candidates) rfl (outcome, skip)
  refine ⟨hinv', wp_accept_bind (fun operation hanswer => ?_) fun _ _ => hinv'⟩
  exact runAutomatic_safe hkept ⟨hinv',
    ⟨plan, (hrebuilt plan rfl).cons (by simp), underPolicy_subset enabled plan⟩, _,
    publishAutomatic_ok hanswer, rfl, rfl⟩

theorem resumeAutomatic_safe
    (h : Inv kept s waiting) (hlocked : Locked s.2) (app : Uuid) (enabled : Bool) :
    Safely kept waiting (resumeAutomatic app operation enabled)
      (fun _ s' => Inv kept s' waiting) s := by
  refine wp_part (buildScopedPlan_safe hkept h hlocked)
    (fun plan s1 ⟨hinv, hrebuilt⟩ => ?_) fun _ _ hpost => hpost.1
  refine wp_call fun readable _ => ?_
  have hinv1 := hinv.ordinary hkept (e := .authorization operation) rfl readable
  refine ⟨hinv1, wp_accept_bind (fun owner _ => ?_) fun _ _ => hinv1⟩
  refine wp_ensure_bind (fun _ => ?_) fun _ => hinv1
  refine wp_call fun readable _ => ?_
  have hinv2 := hinv1.ordinary hkept (e := .planOf operation) rfl readable
  refine ⟨hinv2, wp_accept_bind (fun selected hselected => ?_) fun _ _ => hinv2⟩
  -- the stored plan is that of the operation
  have hselected := readAs_ok hselected
  split at hselected
  next o ho =>
    have hid : o.id = operation := by simpa using List.find?_some ho
    refine runAutomatic_safe hkept ⟨hinv2, ⟨plan, ?_, underPolicy_subset enabled plan⟩, o,
      List.mem_of_find?_eq_some ho, hid, Except.ok.inj hselected⟩
    exact ((hrebuilt plan rfl).cons (by simp)).cons (by simp)
  · cases hselected

theorem startAutomatic_safe
    (h : Inv kept s waiting) (hlocked : Locked s.2) (app : Uuid) (enabled : Bool) :
    Safely kept waiting (startAutomatic app enabled) (fun _ s' => Inv kept s' waiting) s := by
  refine wp_call fun registered _ => ?_
  have hinv1 := h.ordinary hkept (e := .registered app) rfl registered
  refine ⟨hinv1, wp_if (fun _ => hinv1) fun _ => ?_⟩
  refine wp_call fun readable _ => ?_
  have hinv2 := hinv1.ordinary hkept (e := .hasSource app) rfl readable
  refine ⟨hinv2, wp_accept_bind (fun source _ => ?_) fun _ _ => hinv2⟩
  refine wp_if (fun _ => ?_) fun _ => hinv2
  exact beginAutomatic_safe hkept hinv2 ((hlocked.cons (by simp)).cons (by simp)) app enabled

theorem images_safe (h : Inv kept s waiting)
    (app : Uuid) : Safely kept waiting (images app) (fun _ s' => Inv kept s' waiting) s := by
  refine wp_part (lockAll_safe hkept h) (fun _ s1 ⟨hinv, hlocked⟩ => ?_) fun _ _ hpost => hpost.1
  refine wp_call fun answer _ => ?_
  have hinv1 := hinv.ordinary hkept (e := .policyEnabled app) rfl answer
  refine ⟨hinv1, wp_accept_bind (fun enabled _ => ?_) fun _ _ => hinv1⟩
  refine wp_call fun readable _ => ?_
  have hinv2 := hinv1.ordinary hkept (e := .pendingAutomatic app) rfl readable
  have hlocked1 : Locked (siteWorld.traced.act s1 (.policyEnabled app) answer).2.2 :=
    (hlocked rfl).cons (by simp)
  have hlocked2 : Locked (siteWorld.traced.act _ (.pendingAutomatic app) readable).2.2 :=
    hlocked1.cons (by simp)
  refine ⟨hinv2, ?_⟩
  split
  · exact hinv2
  · exact resumeAutomatic_safe hkept hinv2 hlocked2 app enabled
  · exact startAutomatic_safe hkept hinv2 hlocked2 app enabled

end

theorem preview_ordinary (session : String) : (preview session).Only fun e => e.ordinary = true :=
  only_call rfl fun _ =>
    only_bind ((buildScopedPlan_reads ..).mono fun _ he => (ordinary_of_reads he).1) fun _ =>
      only_call rfl fun _ => only_bind (only_orStop ..)
        fun _ => only_call rfl fun _ =>
          only_call rfl fun _ =>
            only_orElse_bind fun _ => trivial

/-! ## The service -/

theorem Inv.forget {jobs : List Job} (h : Inv kept s waiting) (hjobs : jobs ⊆ waiting) :
    Inv kept s jobs :=
  { h with attempts := fun a ha => h.attempts a (hjobs ha) }

theorem discard_safe {p : Prog Call Answer ε α}
    (h : Safely kept waiting p (fun _ s' => Inv kept s' waiting) s) :
    Safely kept waiting (discard p) (fun _ s' => Inv kept s' waiting) s :=
  wp_attempt_bind h fun _ _ hinv => hinv

theorem run_safe (hkept : AllEnded kept) (h : Inv kept s waiting)
    {job : Job} (hjob : job ∈ waiting) :
    Safely kept waiting job.run (fun _ s' => Inv kept s' waiting) s := by
  cases job with
  | preview session => exact discard_safe (ordinary_safe hkept (preview_ordinary session) h)
  | apply a => exact discard_safe (apply_safe hkept h hjob)
  | retention app => exact discard_safe (images_safe hkept h app)

theorem readPublished_safe (hkept : AllEnded kept) (h : Inv kept s waiting) (q : Query) :
    siteWorld.traced.wp (fun _ _ _ => True) (fun _ => True) (readPublished q operation)
      (fun r s' => Inv kept s' (waiting ++ (Service.value r).toList)) s := by
  refine wp_call fun readable _ => ⟨trivial, ?_⟩
  have hinv1 := h.ordinary hkept (e := .published operation) rfl readable
  refine wp_call fun readable' _ => ⟨trivial, ?_⟩
  have hinv2 := hinv1.ordinary hkept (e := .preview q.request.token) rfl readable'
  refine wp_call fun now _ => ⟨trivial, ?_⟩
  have hinv3 := hinv2.ordinary hkept (e := .nowUtc) rfl now
  refine { hinv3 with attempts := fun a ha => ?_ }
  rcases List.mem_append.mp ha with ha | ha
  · exact hinv3.attempts a ha
  · cases List.mem_singleton.mp ha
    intro stored hstored
    have hfound : s.1.operations.find? (fun o => o.id == operation) = some stored :=
      Except.ok.inj (readAs_ok hstored)
    exact ⟨List.mem_of_find?_eq_some hfound, by simpa using List.find?_some hfound⟩

theorem receive_safe (hkept : AllEnded kept) (h : Inv kept s waiting) (demand : Demand) :
    siteWorld.traced.wp (fun _ _ _ => True) (fun _ => True) (receive demand)
      (fun r s' => Inv kept s' (waiting ++ (Service.value r).toList)) s := by
  have hother : ∀ {s' : Site × List Record} {job : Job}, Inv kept s' waiting →
      (∀ a, job ≠ .apply a) → Inv kept s' (waiting ++ [job]) := by
    intro s' job hinv hjob
    refine { hinv with attempts := fun a ha => ?_ }
    rcases List.mem_append.mp ha with ha | ha
    · exact hinv.attempts a ha
    · exact absurd (List.mem_singleton.mp ha).symm (hjob a)
  cases demand with
  | preview | retention => exact hother h fun a heq => by cases heq
  | apply q =>
    refine wp_call fun choice _ => ⟨trivial, ?_⟩
    have hinv := h.ordinary hkept (e := .claim q) rfl choice
    have hnone : Inv kept _ (waiting ++ []) := hinv.forget (by simp)
    split
    · exact readPublished_safe hkept hinv q
    · exact readPublished_safe hkept hinv q
    · exact hnone
    · exact hnone

theorem imageService_keeps (hkept : AllEnded kept) :
    imageService.Keeps (fun _ _ _ _ => True) (fun _ _ => True) (fun _ _ => True) (Inv kept) where
  forget _ _ _ h := h.forget fun _ hmem => List.mem_of_mem_eraseIdx hmem
  forgetAll _ _ h := h.forget (List.nil_subset _)
  receive demand _ _ h := receive_safe hkept h demand
  serve _ jobs i job hget h _ := by
    have hsub : jobs.eraseIdx i ⊆ jobs := fun _ hmem => List.mem_of_mem_eraseIdx hmem
    exact wp_weaken (run_safe hkept h (List.mem_of_getElem? hget)) (fun _ _ _ hG => hG)
      (fun _ hinv => hinv.forget hsub) fun _ _ hinv => hinv.forget hsub
  boot _ h := discard_safe (ordinary_safe hkept (only_call rfl fun _ => only_orElse ..) h)
  change s jobs facts _ h :=
    ⟨h.keyed, h.owned, h.exact, h.seen, h.lasting, h.attempts⟩

end Items

theorem inv_empty (facts : Facts) (next : Uuid) : Inv [] (Site.empty facts next, []) [] where
  keyed := .nil
  owned _ hi := (List.not_mem_nil hi).elim
  exact := trivial
  seen _ hi := (List.not_mem_nil hi).elim
  lasting _ hi := (List.not_mem_nil hi).elim
  attempts _ ha := (List.not_mem_nil ha).elim

/-- The service after a history that starts with empty tables. -/
def reached (facts : Facts) (next : Uuid) (steps : List imageService.Step) :
    Service.State (Site × List Record) Job :=
  play imageService.step ⟨(Site.empty facts next, []), []⟩ steps

/-- The rows `kept` stay, from a state that has them, as long as the history goes on. -/
theorem play_inv {kept : List ImageItem} (hkept : AllEnded kept)
    {s : Service.State (Site × List Record) Job} (h : Inv kept s.world s.waiting)
    (steps : List imageService.Step) :
    Inv kept (play imageService.step s steps).world (play imageService.step s steps).waiting :=
  (along_of_forall Service.allowed_true s steps).invariant
    (I := fun s => Inv kept s.world s.waiting)
    (fun _ _ ha hs => Service.step_invariant (imageService_keeps hkept) ha hs) h

/-- The invariant holds after every history. -/
theorem reached_inv (facts : Facts) (next : Uuid) (steps : List imageService.Step) :
    Inv [] (reached facts next steps).world (reached facts next steps).waiting :=
  play_inv (fun _ hi => (List.not_mem_nil hi).elim) (inv_empty facts next) steps

/-- In every history every removal was exact, an item is recorded as removed only after its
image was observed absent while the item was durably started, and an item that has reached
its end is found unchanged, however the history goes on. -/
theorem image_removal_exact (facts : Facts) (next : Uuid) (steps more : List imageService.Step) :
    RemovalsExact (reached facts next steps).world.2
      ∧ (∀ i ∈ (reached facts next steps).world.1.items, i.status = .removed →
        Seen (reached facts next steps).world.2 i)
      ∧ ∀ i ∈ (reached facts next steps).world.1.items, i.status.terminal = true →
        i ∈ (reached facts next (steps ++ more)).world.1.items
          ∧ ∀ j ∈ (reached facts next (steps ++ more)).world.1.items, j.key = i.key → j = i := by
  have hinv := reached_inv facts next steps
  refine ⟨hinv.exact, hinv.seen, fun i hi hterminal => ?_⟩
  have hkept : Inv [i] (reached facts next steps).world (reached facts next steps).waiting :=
    { hinv with lasting := List.forall_mem_singleton.mpr hi }
  have hlater := play_inv (List.forall_mem_singleton.mpr hterminal) hkept more
  unfold reached at hlater ⊢
  rw [play_append]
  have hmem := hlater.lasting i (List.mem_singleton.mpr rfl)
  exact ⟨hmem, fun j hj hkey => eq_of_key_eq hlater.keyed hj hmem hkey⟩

/-- The image of the sample site is there until its removal, the twenty-second call. -/
def removalScript : siteWorld.traced.Script := fun n e =>
  match e with
  | .inspect id => if n < 22 then .ok (sampleFound id) else .ok none
  | e => sampleScript n e

def sampleQuery : Query where
  key := "0123456789abcdef"
  request := ⟨"token", [sampleCandidate.imageId], true⟩
  session := "session"
  requestId := 0

/-- A preview and a confirmed cleanup: the image is removed. -/
def removalHistory : List imageService.Step :=
  [.receive (.preview "session") removalScript, .serve 0 removalScript,
    .receive (.apply sampleQuery) removalScript, .serve 0 removalScript]

example : (reached sampleFacts 10 removalHistory).world.1.items.map (·.status) = [.removed] := by
  decide +kernel

end SoloDock.Images
