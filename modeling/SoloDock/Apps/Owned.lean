import SoloDock.Apps.Attended

/-!
# Who owns a tombstone

Startup refuses to run when a directory in the trash is not a tombstone of a deletion that
is open or has succeeded. A deletion moves the directory while its record is pending, and
is then never refused in the same attempt. A retry is another matter: the checks it makes
before it looks for the directory can end the record as failed, and the tombstone is then
nobody's.

`Tidy` is kept by every history in which that does not happen: an attempt that is served
when its tombstone is there finds the locks, the preview and the directory as its former
attempt left them, and a recursive delete that is cut short leaves the files the tombstone
is recognised by. Nothing is asked of any other attempt.
-/

namespace SoloDock.Apps

open Lib Mutation
open Lib.World
open Host (act recordOf withMark)

/-- The record of the tombstone's own route and operation is open, or has succeeded with the
response that says so. -/
def Tombstone.OwnedIn (t : Tombstone) (w : Host) : Prop :=
  ∃ r ∈ w.ledger, r.route = .app t.app ∧ r.operationId = t.operation ∧
    (r.status = .pending ∨ r.status = .interrupted ∨ r.status = .succeeded ∧
      ∃ body, r.response = some (200, body) ∧ body.unregisters t.app = true)

/-- Every tombstone is readable and accepted by `validate_app_tombstones`. -/
structure Tidy (w : Host) (ts : List Task) : Prop where
  attended : Attended w ts
  readable : ∀ t ∈ w.trash, t.metadata.isSome
  owned : ∀ t ∈ w.trash, ∃ s, ownedBy t.app (w.recordOf t.app t.operation) = .ok s

variable {t : Tombstone}

namespace Tidy

variable {w w' : Host} {ts : List Task}

theorem empty : Tidy .empty [] := ⟨.empty, nofun, nofun⟩

theorem frame (h : Tidy w ts) {ts' : List Task} (hattended : Attended w' ts')
    (htrash : w'.trash = w.trash)
    (hrecord : ∀ t ∈ w.trash, (∃ s, ownedBy t.app (w.recordOf t.app t.operation) = .ok s) →
      ∃ s, ownedBy t.app (w'.recordOf t.app t.operation) = .ok s) : Tidy w' ts' where
  attended := hattended
  readable t ht := h.readable t (htrash ▸ ht)
  owned t ht := hrecord t (htrash ▸ ht) (h.owned t (htrash ▸ ht))

theorem forget (h : Tidy w ts) (i : Nat) : Tidy w (ts.eraseIdx i) :=
  h.frame (h.attended.forget i) rfl fun _ _ hs => hs

theorem operation_lt (h : Tidy w ts) (ht : t ∈ w.trash) : t.operation < w.next := by
  obtain ⟨v, hv, -⟩ := Ledger.owned_ok_iff.mp (h.owned t ht)
  obtain ⟨r, hr, -, hop, -⟩ := Ledger.mem_of_view hv
  exact hop ▸ h.attended.rows.below r hr

theorem claimed {q : Query} {ts' : List Task} (h : Tidy w ts) (hclaimed : Claimed q w w')
    (hattended : Attended w' ts') : Tidy w' ts' := by
  cases hclaimed with
  | same | drawn => exact h.frame hattended rfl fun _ _ hs => hs
  | new fresh hnone hfresh hmentioned =>
    refine h.frame hattended rfl fun t ht hs => ?_
    have hne : fresh ≠ t.operation := Nat.ne_of_gt (Nat.lt_of_lt_of_le (h.operation_lt ht) hfresh)
    unfold recordOf
    rw [Ledger.view_append_of_ne hne]
    exact hs
  | reopened fresh r hfind hstatus hfresh =>
    exact h.frame hattended rfl fun t ht hs => Ledger.owned_reopen hs

theorem interrupt (h : Tidy w []) : Tidy w.interrupt [] := by
  refine h.frame h.attended.interrupt rfl fun t _ hs => ?_
  rw [owned_interrupt]
  exact hs

theorem removeTombstone {app op : Uuid} {c : RemovalChoice} (h : Tidy w ts)
    (hintact : intact w (.removeTombstone app op) c = true) :
    Tidy (w.removeTombstone app op c).2 ts := by
  have hkept := removeTombstone_kept w app op c
  refine ⟨h.attended.congr ?_ ?_, removeTombstone_readable h.readable hintact, fun t ht => ?_⟩
  · rw [hkept]
  · rw [hkept]
  · rw [hkept.recordOf]
    rcases mem_removeTombstone ht with ⟨ht, -⟩ | ⟨order, -, s, hs, -, -, rfl, -⟩
    · exact h.owned t ht
    · exact h.owned s hs

theorem housekeeps {e : Call} (he : e.Housekeeps) {c : Choice e} (hintact : intact w e c = true)
    (h : Tidy w ts) : Tidy (act w e c).2 ts := by
  have hkept := he.kept w c
  have hframe : (act w e c).2.trash = w.trash → Tidy (act w e c).2 ts := by
    intro htrash
    refine h.frame (h.attended.congr ?_ ?_) htrash fun t _ hs => ?_
    · rw [hkept]
    · rw [hkept]
    · rw [hkept.recordOf]
      exact hs
  cases e with
  | removeTombstone app op => exact h.removeTombstone hintact
  | insertReceipt app op =>
    refine hframe ?_
    show (if c.applied then w.insertReceipt app op else w).trash = w.trash
    unfold Host.insertReceipt
    repeat' split
    all_goals rfl
  | markFinalized app op =>
    refine hframe ?_
    show (if c.applied then w.markFinalized app op else w).trash = w.trash
    split <;> rfl
  | _ => first | exact he.elim | exact hframe rfl

theorem change (h : Tidy w ts) (b : Change) : Tidy (w.change b) ts := by
  cases b with
  | previews | edit => exact h.frame (h.attended.congr rfl rfl) rfl fun _ _ hs => hs
  | collect picked =>
    unfold Host.change
    dsimp only
    split
    · refine h.frame (h.attended.collect _ _) rfl fun t ht hs => ?_
      have hview : (w.ledger.collect w.protects fun op => picked.contains op).view (.app t.app)
          t.operation = w.ledger.view (.app t.app) t.operation := by
        refine Ledger.view_collect fun r _ hop => ?_
        have hprotects : w.protects r = true := by
          unfold Host.protects
          rw [Bool.or_eq_true]
          exact .inl (List.any_eq_true.mpr ⟨t, ht, by simp [hop]⟩)
        simp [Ledger.outlives, hprotects]
      unfold recordOf
      rw [hview]
      exact hs
    · exact h

end Tidy

/-! ## The deletion's own record -/

variable {w : Host} {a : Attempt} {app : Uuid} {ts : List Task}

theorem owned_of_holds (hrows : w.ledger.Rows w.next)
    (hholds : w.ledger.Holds a.claim) (hroute : a.route = .app app) :
    ∃ s, ownedBy app (w.recordOf app a.operation) = .ok s := by
  obtain ⟨r, hr, hop, -, hpending⟩ := hholds
  obtain ⟨hmem, hat⟩ := Ledger.find_some hr
  have hview := Ledger.view_of_mem hrows hmem
  refine Ledger.owned_ok_iff.mpr ⟨⟨r.status, r.response⟩, ?_, .inl hpending⟩
  have hroute' : r.route = .app app := hat.1.trans hroute
  rw [hroute', hop] at hview
  exact hview

theorem route_of_owned (hrows : w.ledger.Rows w.next)
    (hholds : w.ledger.Holds a.claim) (hop : t.operation = a.operation)
    (howned : ∃ s, ownedBy t.app (w.recordOf t.app t.operation) = .ok s) :
    a.route = .app t.app := by
  obtain ⟨v, hv, -⟩ := Ledger.owned_ok_iff.mp howned
  obtain ⟨r, hr, hroute, hrop, -⟩ := Ledger.mem_of_view hv
  obtain ⟨hfind, -, -⟩ := hrows.pending hholds hr (hrop.trans hop)
  exact (Ledger.find_some hfind).2.1.symm.trans hroute

theorem metadata_tombstoneTree {op : Uuid} {m : Metadata} {now : Instant} {rest : FileTree Node}
    (hid : m.id = app) :
    (Tombstone.mk app op (Host.tombstoneTree app op (withMark op now m) rest)).metadata =
      some (withMark op now m) := by
  unfold Tombstone.metadata
  have hmarker : (Host.tombstoneTree app op (withMark op now m) rest).get ["deletion.toml"] =
      some (.marker ⟨1, app, op⟩) := rfl
  have hfile : (Host.tombstoneTree app op (withMark op now m) rest).get ["app.toml"] =
      some (.metadata (withMark op now m)) := rfl
  rw [hmarker, hfile]
  exact if_pos ⟨rfl, rfl, rfl, hid, rfl⟩

theorem metadataOf_id {m : Metadata} (h : w.metadataOf app = some m) : m.id = app := by
  simpa using List.find?_some h

/-! ## A handler keeps every tombstone owned -/

/-- The operation has a tombstone. -/
def Host.tombstoned (w : Host) (op : Uuid) : Bool := w.trash.any fun t => t.operation == op

/-- What a deletion finds whose former attempt has moved the directory: the app's lock is
free, nothing of the app is being cleaned up, the preview is used, and is the one that the
request was confirmed with in its own session, and the directory is gone. -/
def retryPasses (a : Attempt) : (e : Call) → Answer e → Bool
  | .tryApp _, free => free
  | .cleanupInProgress _, .ok count => count == 0
  | .preview _ _, .ok found =>
    match a.query.request with
    | .delete app token slug expected remove =>
      found.any fun p =>
        p.consumed && previewFits ⟨app, token, slug, expected, remove⟩ a.query.session p
    | _ => true
  | .appDirectoryExists _, there => !there && a.resumed
  | _, _ => true

/-- An attempt that is served when its tombstone is there finds what it left, and what is
removed by halves can still be read. `w₀` is the world in which the attempt is served. -/
def spares (w₀ : Host) (t : Option Task) (w : Host) (e : Call) (c : Choice e) : Bool :=
  intact w e c &&
    match t with
    | some (.attempt a) => !w₀.tombstoned a.operation || retryPasses a e (act w e c).1
    | _ => true

theorem Tidy.stirs {w' : Host} (h : Tidy w ts)
    (hstirs : Stirs a w w') (hapart : ∀ d ∈ underWay ts, a.claim.Apart d)
    (hholds : w.ledger.Holds a.claim) : Tidy w' ts := by
  have hnoted := hstirs.isNoted
  have hattended := hnoted.attended h.attended hapart
  have hframe : w'.trash = w.trash → Tidy w' ts := fun htrash =>
    h.frame hattended htrash fun t _ hs => by
      rw [hnoted.recordOf]
      exact hs
  cases hstirs with
  | moved app now rest m hroute hm hnone =>
    refine ⟨hattended, fun t ht => ?_, fun t ht => ?_⟩
    · rcases List.mem_cons.mp ht with rfl | ht
      · rw [metadata_tombstoneTree (metadataOf_id hm)]
        rfl
      · exact h.readable t ht
    · rw [hnoted.recordOf]
      rcases List.mem_cons.mp ht with rfl | ht
      · exact owned_of_holds h.attended.rows hholds hroute
      · exact h.owned t ht
  | _ => exact hframe rfl

theorem Tidy.markInterrupted (h : Tidy w ts)
    (hapart : ∀ d ∈ underWay ts, a.claim.Apart d) (o : Outcome) :
    Tidy (act w (.markInterrupted a.route a.key) o).2 ts := by
  rcases wrote_markInterrupted a w o with heq | hwrote
  · rw [heq]
    exact h
  · have hattended := hwrote.attended Ledger.advances_interrupted h.attended hapart
    refine h.frame hattended ?_ fun t _ hs => ?_
    · show (if o.applied then { w with ledger := _ } else w : Host).trash = w.trash
      split <;> rfl
    · unfold ownedBy recordOf at hs ⊢
      rw [hwrote.ledger]
      have hsame := Ledger.owned_markInterrupted (Body.unregisters t.app) w.ledger a.route
        (.app t.app) a.key t.operation
      rw [Ledger.markInterrupted] at hsame
      rw [hsame]
      exact hs

theorem finish_trash (w : Host) (route : Route) (key : String) (status : Nat) (body : Body)
    (code : Option String) (o : Outcome) :
    (act w (.finish route key status body code) o).2.trash = w.trash := by
  show (if o.applied then w.finish route key status body code else w).trash = w.trash
  split <;> rfl

theorem trash_act {e : Call} (hin : e.Within a) (c : Choice e)
    (h : ∀ app op, e ≠ .tombstone app op) :
    (act w e c).2.trash = w.trash := by
  cases e with
  | tombstone app op => exact absurd rfl (h app op)
  | removeTombstone app op => exact hin.elim
  | _ =>
    simp only [Host.act, Host.claim, Ledger.answered, Host.finish, Host.mark, Host.createApp,
      Host.updateDraft, Host.setDesiredState, Host.edit, Host.consumePreview, Host.insertReceipt, Host.markFinalized]
    repeat' split
    all_goals rfl

theorem Phase.fresh_of_after {ph : Phase} {e : Call} (h : ph.after e = .fresh) :
    ph = .fresh ∧ ∀ app op, e ≠ .tombstone app op := by
  cases e with
  | createApp | updateDraft | setDesiredState | tombstone => cases h
  | composeRun => cases ph <;> cases h
  | _ => exact ⟨h, nofun⟩

/-- The record is open, and, when the attempt came without a tombstone (`free`), there is none
until it moves the directory. -/
structure Unmoved (free : Prop) (a : Attempt) (ph : Phase) (w : Host) : Prop where
  holds : w.ledger.Holds a.claim
  fresh : free → ph = .fresh → w.tombstoned a.operation = false

variable {G : Host → (e : Call) → Choice e → Prop} {rest : List Task} {free : Prop} {ph : Phase}

theorem Unmoved.step {e : Call} {c : Choice e} (h : Unmoved free a ph w) (hin : e.Within a) :
    Unmoved free a (ph.after e) (act w e c).2 := by
  refine ⟨(hin.stirs w c).isNoted.holds h.holds, fun hfree hph => ?_⟩
  obtain ⟨hfresh, hne⟩ := Phase.fresh_of_after hph
  unfold Host.tombstoned
  rw [trash_act hin c hne]
  exact h.fresh hfree hfresh

theorem tidy_ends (free : Prop) (hapart : ∀ d ∈ underWay rest, a.claim.Apart d)
    (hG : ∀ w e c, G w e c → intact w e c = true) :
    Ends a G (Tidy · rest) (fun ph w => Tidy w rest ∧ Unmoved free a ph w) (Tidy · rest) where
  crashOpen _ _ hw := hw.1
  crashClosed _ hw := hw
  step ph w e c _ hin hw := ⟨hw.1.stirs (hin.stirs w c) hapart hw.2.holds, hw.2.step hin⟩
  escape ph w e c _ hw hesc := by
    rw [escapes_quiet hesc]
    exact hw.1
  interrupt ph w c _ hw := hw.1.markInterrupted hapart c
  again w c _ hw := hw.markInterrupted hapart c
  succeed ph w status body c _ _ htells hw := by
    obtain ⟨htidy, ⟨hholds, -⟩⟩ := hw
    obtain ⟨r, hr, hop, -⟩ := id hholds
    rcases wrote_finish a w status body none c with heq | hwrote
    · rw [heq]
      exact htidy
    · have hf := Ledger.advances_finished (κ := Route) (ρ := Request) status body none
      refine htidy.frame (hwrote.attended hf htidy.attended hapart) (finish_trash ..)
        fun t ht hs => ?_
      by_cases hmine : t.operation = a.operation
      · -- The tombstone is this deletion's: the response says that the app is unregistered.
        have hroute := route_of_owned htidy.attended.rows hholds hmine hs
        obtain ⟨rfl, hbody, -⟩ := htells t.app hroute
        rw [hmine, hwrote.recordOf_own hf htidy.attended.rows hr hop hroute]
        exact ⟨true, by simp [ownedBy, Ledger.owned, Ledger.finished, hbody]⟩
      · have hne : r.operationId ≠ t.operation := fun heq => hmine (heq.symm.trans hop)
        rw [hwrote.recordOf hf htidy.attended.rows hr hne]
        exact hs
  finalize app w _ hw :=
    wp_of_only (finalizeAppUnregistration_only app a.operation)
      (fun w e c he hc hw => hw.housekeeps he (hG w e c hc)) (fun _ hw => hw) hw

/-- A deletion that has no tombstone may be refused: the record it closes owns none. -/
theorem Tidy.refuse {status : Nat} {body : Body} {code : String} {c : Outcome} (htidy : Tidy w rest)
    (hapart : ∀ d ∈ underWay rest, a.claim.Apart d) (hholds : w.ledger.Holds a.claim)
    (hnone : (∃ app, a.route = .app app) → w.tombstoned a.operation = false) :
    Tidy (act w (.finish a.route a.key status body (some code)) c).2 rest := by
  obtain ⟨r, hr, hop, -⟩ := id hholds
  rcases wrote_finish a w status body (some code) c with heq | hwrote
  · rw [heq]
    exact htidy
  · have hf := Ledger.advances_finished (κ := Route) (ρ := Request) status body (some code)
    refine htidy.frame (hwrote.attended hf htidy.attended hapart) (finish_trash ..)
      fun t ht hs => ?_
    have hne : r.operationId ≠ t.operation := by
      intro heq
      have hmine : t.operation = a.operation := heq.symm.trans hop
      have hroute := route_of_owned htidy.attended.rows hholds hmine hs
      exact List.any_eq_false.mp (hnone ⟨_, hroute⟩) t ht (by simp [hmine])
    rw [hwrote.recordOf hf htidy.attended.rows hr hne]
    exact hs

/-- What a walk needs, for an invariant that lets an operation be refused as long as it has no
tombstone. -/
theorem unmoved_walk {C D J : Host → Prop}
    (hends : Ends a G C (fun ph w => J w ∧ Unmoved True a ph w) D)
    (hrefuse : ∀ w status body code c, G w (.finish a.route a.key status body (some code)) c →
      (∀ app, a.route = .app app → 400 ≤ status) → J w → w.ledger.Holds a.claim →
      ((∃ app, a.route = .app app) → w.tombstoned a.operation = false) →
      D (act w (.finish a.route a.key status body (some code)) c).2) :
    Walk a [] G C (fun ph w => J w ∧ Unmoved True a ph w) D
      (fun _ w => (∃ app, a.route = .app app) → w.tombstoned a.operation = false) where
  toEnds := hends
  stored _ _ _ _ _ _ _ _ hw := ⟨hw.1, hw.2.holds, nofun⟩
  fresh _ _ _ hw _ := hw.2.fresh trivial rfl
  early w e c s _ hw hr _ := by
    rw [refusal_quiet hr]
    exact hw.2.fresh trivial rfl
  late app action hreq _ _ _ _ _ _ _ _ _ happ := by
    obtain ⟨app', hroute⟩ := happ
    exact absurd hroute (Walk.not_app_of_lifecycle hreq app')
  uniform _ _ _ _ hm := hm
  refuse ph w status body code c hc hge hm hw :=
    hrefuse w status body code c hc hge hw.1 hw.2.holds hm

/-- The retry of a deletion that has moved the directory answers with it, or stays open. -/
theorem deleteApp_retry {C D : Host → Prop} {P : Phase → Host → Prop} {d : Deletion}
    (h : Ends a G C P D) (hpass : ∀ w e c, G w e c → retryPasses a e (act w e c).1 = true)
    (hdel : Deleting a d) (hw : P ph w) : Walks G C D (deleteApp a d) w := by
  refine h.look rfl hw fun free hc => ?_
  obtain rfl : free = true := hpass w _ _ hc
  refine h.look rfl hw fun cleanup hc => ?_
  cases cleanup with
  | error error => exact h.interrupted hw
  | ok count =>
    have hnone : (count == 0) = true := hpass w (.cleanupInProgress d.app) (.ok count) hc
    have hnone : count = 0 := by simpa using hnone
    refine wp_if (fun hbusy => absurd hnone hbusy) fun _ => ?_
    refine h.look rfl hw fun readable hc => ?_
    cases readable with
    | false => exact h.interrupted hw
    | true =>
      have hfound : (match a.query.request with
          | .delete app token slug expected remove => (w.previewOf d.token d.app).any fun p =>
            p.consumed && previewFits ⟨app, token, slug, expected, remove⟩ a.query.session p
          | _ => true) = true := hpass w (.preview d.token d.app) true hc
      rw [hdel.request] at hfound
      have hread : (act w (.preview d.token d.app) true).1 = .ok (w.previewOf d.token d.app) := rfl
      rw [hread]
      cases hp : w.previewOf d.token d.app with
      | none =>
        rw [hp] at hfound
        cases hfound
      | some p =>
        rw [hp] at hfound
        have hfits : p.consumed = true ∧ previewFits d a.query.session p = true := by
          simpa using hfound
        refine wp_if (fun _ => ?_) fun hno => absurd hfits.2 hno
        refine h.look rfl hw fun visible hc => ?_
        have hgone := hpass w _ _ hc
        simp only [retryPasses, Bool.and_eq_true, Bool.not_eq_true'] at hgone
        refine wp_if (fun hthere => ?_) fun _ => ?_
        · rw [hgone.1] at hthere
          cases hthere
        · refine wp_if (fun _ => ?_) fun hnew => absurd hgone.2 hnew
          refine wp_if (fun _ => h.resumeDeletion_walk hw hdel) fun hunused =>
            absurd hfits.1 hunused

theorem handle_retry {C D : Host → Prop} {P : Phase → Host → Prop}
    (h : Ends a G C P D) (hpass : ∀ w e c, G w e c → retryPasses a e (act w e c).1 = true)
    (hroute : a.route = .app app) (hw : P .fresh w) : Walks G C D (handle a) w := by
  cases hreq : a.query.request with
  | delete app token slug expected remove =>
    have hhandle : handle a = deleteApp a ⟨app, token, slug, expected, remove⟩ := by
      unfold handle
      rw [hreq]
    rw [hhandle]
    exact deleteApp_retry h hpass ⟨hreq⟩ hw
  | _ =>
    rw [Attempt.route, hreq] at hroute
    cases hroute

/-! ## Every history -/

variable {w₀ : Host}

theorem spares_intact {t : Option Task} {e : Call} {c : Choice e}
    (h : spares w₀ t w e c = true) : intact w e c = true := by
  simp only [spares, Bool.and_eq_true] at h
  exact h.1

theorem spares_passes {e : Call} {c : Choice e} (hmoved : w₀.tombstoned a.operation = true)
    (h : spares w₀ (some (.attempt a)) w e c = true) : retryPasses a e (act w e c).1 = true := by
  simp only [spares, hmoved, Bool.and_eq_true] at h
  simpa using h.2

theorem Tidy.route_of_tombstoned (h : Tidy w ts) (hholds : w.ledger.Holds a.claim)
    (hmoved : w.tombstoned a.operation = true) : ∃ app, a.route = .app app := by
  obtain ⟨t, ht, hop⟩ := List.any_eq_true.mp hmoved
  exact ⟨t.app, route_of_owned h.attended.rows hholds (by simpa using hop) (h.owned t ht)⟩

/-- `spares` as a condition on the steps of a history. -/
def Spared (w₀ : Host) (t : Option Task) (w : Host) (e : Call) (c : appService.world.Choice e) :
    Prop :=
  spares w₀ t w e c = true

instance (t : Option Task) (w : Host) (e : Call) (c : appService.world.Choice e) :
    Decidable (Spared w₀ t w e c) := inferInstanceAs (Decidable (spares w₀ t w e c = true))

/-- Every step keeps the trash tidy, if the answers spare the tombstones that are there and a
retry finds its own. -/
theorem tidy_stable (w₀ : Host) :
    Stable (Spared w₀) (fun w _ => w = w₀ ∧ True) (fun _ _ => True) Tidy where
  attended _ _ h := h.attended
  waits _ _ _ h hattended _ := h.frame hattended rfl fun _ _ hs => hs
  claimed _ _ _ _ _ h hclaimed hattended _ := h.claimed hclaimed hattended
  interrupt _ h := h.interrupt
  housekeeps _ _ _ _ _ hc he h := h.housekeeps he (spares_intact hc)
  handle w ts i a hget h hw := by
    obtain ⟨rfl, -⟩ := hw
    have hapart := h.attended.others hget
    have hholds := h.attended.holds hget
    by_cases hmoved : w.tombstoned a.operation = true
    · obtain ⟨app, hroute⟩ := h.route_of_tombstoned hholds hmoved
      exact handle_retry (tidy_ends False hapart fun _ _ _ => spares_intact)
        (fun _ _ _ => spares_passes hmoved) hroute ⟨h.forget i, hholds, False.elim⟩
    · refine (unmoved_walk (tidy_ends _ hapart fun _ _ _ => spares_intact)
        fun w status body code c _ _ hw hholds => hw.refuse hapart hholds).handle_walk
        ⟨h.forget i, hholds, fun _ _ => ?_⟩
      simpa using hmoved
  change _ _ b _ h := h.change b

/-- A tombstone of a tidy state belongs to a deletion on record. -/
theorem Tidy.ownedIn (h : Tidy w ts) (ht : t ∈ w.trash) : t.OwnedIn w := by
  obtain ⟨v, hv, hstatus⟩ := Ledger.owned_ok_iff.mp (h.owned t ht)
  obtain ⟨r, hr, hroute, hop, rfl⟩ := Ledger.mem_of_view hv
  exact ⟨r, hr, hroute, hop, hstatus⟩

theorem validateEach_accepts {w : Host} : ∀ l : List (Uuid × Uuid),
    (∀ x ∈ l, ∃ s, ownedBy x.1 (w.recordOf x.1 x.2) = .ok s) →
    appWorld.wp (fun _ e c => works e c = true) (fun _ => True) (validateEach l)
      (fun r w' => r.isOk = true ∧ w' = w) w
  | [], _ => ⟨rfl, rfl⟩
  | (app, op) :: rest, howned => by
    refine wp_look rfl trivial fun readable hc => ?_
    obtain rfl : readable = true := hc
    obtain ⟨s, hs⟩ := howned _ List.mem_cons_self
    refine wp_accept_bind (fun row hrow => ?_) nofun
    obtain rfl : w.recordOf app op = row := Except.ok.inj hrow
    refine wp_accept_bind (fun _ _ => ?_) fun err herr => ?_
    · refine wp_part (validateEach_accepts rest fun x hx => howned x (List.mem_cons_of_mem _ hx))
        (fun res w' h => ⟨rfl, h.2⟩) fun err w' h => ?_
      cases h.1
    · cases hs.symm.trans herr

/-- `validate_app_tombstones` accepts the state, whatever the environment picks as long as
every call works. -/
theorem Tidy.validates (h : Tidy w ts) {o : appWorld.Script} (ho : ∀ n e, works e (o n e) = true) :
    (appWorld.exec o 0 validateAppTombstones w).1.isOk = true := by
  have hspec : appWorld.wp (fun _ e c => works e c = true) (fun _ => True) validateAppTombstones
      (fun r w' => r.isOk = true ∧ w' = w) w := by
    refine wp_look rfl trivial fun readable hc => ?_
    obtain rfl : readable = true := hc
    have hlist : w.tombstones = .ok (w.trash.map fun t => (t.app, t.operation)) :=
      if_pos (List.all_eq_true.mpr h.readable)
    refine wp_orElse_bind (fun l hl => ?_) fun err herr => ?_
    · cases hlist.symm.trans hl
      refine validateEach_accepts _ fun x hx => ?_
      obtain ⟨t, ht, rfl⟩ := List.mem_map.mp hx
      exact h.owned t ht
    · cases hlist.symm.trans herr
  exact (wp_exec o 0 hspec (meets_of_forall appWorld (fun n _ e => ho n e) 0 _ w)).1

/-- In every history in which an attempt that is served when its tombstone is there finds what
its former attempt left, and no cut removal spoils a tombstone, every tombstone is owned, and
startup accepts them. -/
theorem every_tombstone_owned {steps : List appService.Step}
    (h : Along appService.step
      (fun s => appService.Allowed (Spared s.world) (fun _ _ => True) (fun _ _ => True) s)
      ⟨.empty, []⟩ steps) :
    (∀ t ∈ (play appService.step ⟨.empty, []⟩ steps).world.trash,
      t.OwnedIn (play appService.step ⟨.empty, []⟩ steps).world) ∧
    ∀ o : appWorld.Script, (∀ n e, works e (o n e) = true) →
      (appWorld.exec o 0 validateAppTombstones
        (play appService.step ⟨.empty, []⟩ steps).world).1.isOk = true := by
  have htidy := Service.invariant_from (fun w => (tidy_stable w).keeps) h Tidy.empty
  exact ⟨fun t ht => htidy.ownedIn ht, fun o ho => htidy.validates ho⟩

/-- The process dies right after the directory was moved; the deletion is then retried from
`session`. -/
def retried (session : String) : List appService.Step :=
  sampleHistory ++
    [.giveUp 0 11 calm, .restart calm, .receive (.request (sampleDelete session)) calm]

/-- The directory cannot be removed yet, so that the tombstone of a deletion stays. -/
def stuck : appWorld.Script := fun _ e =>
  match e with
  | .syncUnregisteredApp _ => .failed false
  | e => smooth e

/-- The same session's retry is served: it finds its tombstone and succeeds, and the tombstone,
which cannot be removed yet, is owned by the record that says so. -/
theorem own_retry_owned :
    let w := (play appService.step ⟨.empty, []⟩ (retried "session" ++ [.serve 0 stuck])).world
    w.hasTombstone 0 1 = true ∧ (w.recordOf 0 1).map (·.status) = some .succeeded ∧
      ∀ t ∈ w.trash, t.OwnedIn w :=
  ⟨by decide +kernel, by decide +kernel, (every_tombstone_owned (by decide +kernel)).1⟩

/-- Another session's retry is refused, and the next startup is too. -/
theorem other_session_disowns :
    let w := (play appService.step ⟨.empty, []⟩ (retried "other" ++ [.serve 0 calm])).world
    w.hasTombstone 0 1 = true ∧ (w.recordOf 0 1).map (·.status) = some .failed ∧
      (appWorld.exec calm 0 validateAppTombstones w).1.isOk = false ∧
      (appWorld.exec calm 0 startup w).1.isOk = false := by
  decide +kernel

end SoloDock.Apps
