import SoloDock.Apps.Attended

/-!
# One slug, one app

A slug names an app's project, networks and volumes. Both handlers that create an app look
for the slug among the apps that the scan of the store found valid, and the scan leaves out
every directory it finds something wrong with: a bind source that is not mounted is enough.
The next scan that finds the directory in order counts its slug again, and reports both apps
as duplicates.

`Unique` is kept by every history in which a creation is never checked while a directory that
the scan leaves out carries its slug, and a scan of a store that is `Unique` reports no
duplicate.
-/

namespace SoloDock.Apps

open Lib Mutation
open Lib.World
open Lib.Prog

/-- No two app directories carry the same slug. -/
def Unique (w : Host) : Prop := w.live.Pairwise fun m m' => m.slug ≠ m'.slug

/-! ## The recovery scan -/

/-- The part of `RecoveryReport` that concerns slugs. -/
structure SlugReport where
  validApps : List Metadata
  /-- The apps with the issue `APP_SLUG_DUPLICATE`. -/
  duplicates : List Uuid
  deriving DecidableEq, Repr

namespace Host

/-- The end of `scan_store`: among the directories in which nothing else is wrong, those that
`sound` picks, the ones whose slug is counted more than once are reported. -/
def scanStore (w : Host) (sound : Uuid → Bool) : SlugReport :=
  let candidates := w.live.filter fun m => sound m.id
  let repeated := fun m : Metadata => decide (1 < candidates.countP fun m' => m'.slug == m.slug)
  { validApps := candidates.filter fun m => !repeated m
    duplicates := (candidates.filter repeated).map (·.id) }

end Host

theorem countP_slug_le {l : List Metadata} (h : l.Pairwise fun m m' => m.slug ≠ m'.slug)
    (slug : String) : l.countP (fun m => m.slug == slug) ≤ 1 := by
  induction l with
  | nil => exact Nat.zero_le 1
  | cons m l ih =>
    obtain ⟨hm, hl⟩ := List.pairwise_cons.mp h
    by_cases heq : m.slug = slug
    · have hnone : l.countP (fun m => m.slug == slug) = 0 := by
        refine List.countP_eq_zero.mpr fun m' hm' hslug => ?_
        have hslug : m'.slug = slug := by simpa using hslug
        exact hm m' hm' (heq.trans hslug.symm)
      rw [List.countP_cons, hnone]
      split <;> omega
    · rw [List.countP_cons_of_neg (by simpa using heq)]
      exact ih hl

variable {w : Host}

/-- With unique slugs a scan of the store reports no duplicate, whatever it can read. -/
theorem Unique.no_duplicates (h : Unique w) (sound : Uuid → Bool) :
    (w.scanStore sound).duplicates = [] := by
  have hcandidates : (w.live.filter fun m => sound m.id).Pairwise fun m m' => m.slug ≠ m'.slug :=
    h.sublist List.filter_sublist
  show ((w.live.filter fun m => sound m.id).filter _).map (·.id) = []
  rw [List.map_eq_nil_iff, List.filter_eq_nil_iff]
  intro m _ hrepeated
  have hle := countP_slug_le hcandidates m.slug
  have hlt : 1 < (w.live.filter fun m => sound m.id).countP fun m' => m'.slug == m.slug :=
    of_decide_eq_true hrepeated
  omega

/-! ## What calls do to slugs -/

namespace Unique

section

variable (h : Unique w)

include h

theorem of_live {w' : Host} (hlive : w'.live = w.live) : Unique w' := by
  unfold Unique
  rw [hlive]
  exact h

theorem edit (app : Uuid) {f : Metadata → Metadata}
    (hf : ∀ m ∈ w.live, m.id = app → (f m).slug = m.slug) : Unique (w.edit app f) := by
  have hslug : ∀ m ∈ w.live, (if m.id = app then { f m with id := app } else m).slug = m.slug := by
    intro m hm
    split
    next hid => exact hf m hm hid
    · rfl
  refine List.pairwise_map.mpr (h.imp_of_mem fun {m m'} hm hm' hne => ?_)
  rw [hslug m hm, hslug m' hm']
  exact hne

theorem updateDraft (app : Uuid) (expected : Option Uuid) (op : Uuid) (draft : Draft)
    (o : Outcome) (conflict : Bool) (now : Instant) :
    Unique (w.updateDraft app expected op draft o conflict now).2 := by
  unfold Host.updateDraft
  split
  · exact h
  · split
    · exact h
    · split
      · exact h
      · dsimp only
        split
        · have hedit := h.edit app (f := Host.withDraft op draft now) fun _ _ _ => rfl
          exact hedit.of_live rfl
        · exact h

theorem setDesiredState (app : Uuid) (desired : Deploy.DesiredState) (op : Uuid)
    (o : Outcome) (now : Instant) : Unique (w.setDesiredState app desired op o now).2 := by
  unfold Host.setDesiredState
  split
  · exact h
  · dsimp only
    split
    · have hedit := h.edit app (f := Host.withDesired desired op now) fun _ _ _ => rfl
      exact hedit.of_live rfl
    · exact h

theorem tombstone (app op : Uuid) (c : TombstoneChoice) : Unique (w.tombstone app op c).2 := by
  cases c with
  | failed => exact h
  | marked now => exact h.edit _ fun _ _ _ => rfl
  | renamed now rest synced =>
    unfold Host.tombstone
    dsimp only
    split
    · exact h
    · split
      · exact h.edit _ fun _ _ _ => rfl
      · exact h.sublist List.filter_sublist

theorem createApp {slug : String} (hfree : ∀ m ∈ w.live, m.slug ≠ slug) (op : Uuid)
    (draft : Option Draft) (o : Outcome) (now : Instant) :
    Unique (w.createApp slug op draft o now).2 := by
  unfold Host.createApp
  split
  · exact h
  · split
    · exact h
    · exact List.pairwise_cons.mpr ⟨fun m hm heq => hfree m hm heq.symm, h⟩

theorem act {e : Call} (he : ∀ slug op draft, e ≠ .createApp slug op draft)
    (c : Choice e) : Unique (Host.act w e c).2 := by
  cases e with
  | createApp slug op draft => exact absurd rfl (he slug op draft)
  | updateDraft app expected op draft => exact h.updateDraft app expected op draft c.1 c.2.1 c.2.2
  | setDesiredState app desired op => exact h.setDesiredState app desired op c.1 c.2
  | tombstone app op => exact h.tombstone app op c
  | _ => exact h.of_live (live_act w c id)

end

end Unique

/-! ## The handlers -/

/-- The slug a request creates an app under. -/
def Request.newSlug : Request → Option String
  | create slug => some slug
  | createFromPreset slug _ => some slug
  | _ => none

/-- While a creation is checked, the scan leaves out no directory that carries its slug. -/
def sees (t : Option Task) (w : Host) : (e : Call) → Choice e → Bool
  | .scanSlugs, some valid =>
    match t with
    | some (.attempt a) => w.live.all fun m => a.query.request.newSlug != some m.slug || valid m.id
    | _ => true
  | _, _ => true

/-- `sees` as a condition on the steps of a history. -/
def Sees (t : Option Task) (w : Host) (e : Call) (c : appService.world.Choice e) : Prop :=
  sees t w e c = true

instance (t : Option Task) (w : Host) (e : Call) (c : appService.world.Choice e) :
    Decidable (Sees t w e c) := inferInstanceAs (Decidable (sees t w e c = true))

section Handlers

variable {G : Host → (e : Call) → Choice e → Prop}

theorem wp_of_creates_none {p : Prog Call Answer ε α}
    (hp : p.Only fun e => ∀ slug op draft, e ≠ .createApp slug op draft) (hw : Unique w) :
    appWorld.wp G Unique p (fun _ => Unique) w :=
  wp_of_only hp (fun _ _ c he _ hw => hw.act he c) (fun _ hw => hw) hw

theorem housekeeps_creates_none {e : Call} (he : e.Housekeeps) (slug : String) (op : Uuid)
    (draft : Option Draft) : e ≠ .createApp slug op draft := by
  rintro rfl
  exact he

theorem interruptInternal_creates_none (a : Attempt) :
    (interruptInternal a).Only fun e => ∀ slug op draft, e ≠ .createApp slug op draft :=
  only_call (fun _ _ _ => nofun) fun _ => trivial

theorem record_creates_none (a : Attempt) (status : Nat) (body : Body) (code : Option String) :
    (record a status body code).Only fun e => ∀ slug op draft, e ≠ .createApp slug op draft := by
  refine only_call (fun _ _ _ => nofun) fun r => ?_
  cases r with
  | ok _ => trivial
  | error _ => exact interruptInternal_creates_none a

theorem finishCreated_creates_none (a : Attempt) (m : Metadata) :
    (finishCreated a m).Only fun e => ∀ slug op draft, e ≠ .createApp slug op draft :=
  only_call (fun _ _ _ => nofun) fun _ => record_creates_none ..

theorem recoverCreate_creates_none (a : Attempt) (error : StoreError) :
    (recoverCreate a error).Only fun e => ∀ slug op draft, e ≠ .createApp slug op draft := by
  have hinterrupt := interruptInternal_creates_none a
  unfold recoverCreate
  split
  · refine only_call (fun _ _ _ => nofun) fun r => ?_
    cases r with
    | error _ => exact hinterrupt
    | ok existing =>
      dsimp only
      split
      · exact record_creates_none ..
      · exact finishCreated_creates_none a existing
  · refine only_call (fun _ _ _ => nofun) fun r => ?_
    cases r with
    | error _ => exact hinterrupt
    | ok existing =>
      dsimp only
      split
      · refine only_call (fun _ _ _ => nofun) fun r => ?_
        cases r with
        | ok _ => exact finishCreated_creates_none a existing
        | error _ => exact hinterrupt
      · exact hinterrupt

variable {a : Attempt} {slug : String}

section

variable (hslug : a.query.request.newSlug = some slug)

include hslug

theorem free_of_sees {valid : Uuid → Bool}
    (hsees : sees (some (.attempt a)) w .scanSlugs (some valid) = true)
    (hlist : ((w.live.filter fun m => valid m.id).map (·.slug)).contains slug = false) :
    ∀ m ∈ w.live, m.slug ≠ slug := by
  intro m hm heq
  have hvalid := List.all_eq_true.mp hsees m hm
  rw [hslug, heq] at hvalid
  have hmem : slug ∈ (w.live.filter fun m => valid m.id).map (·.slug) :=
    List.mem_map.mpr ⟨m, List.mem_filter.mpr ⟨hm, by simpa using hvalid⟩, heq⟩
  rw [List.contains_iff_mem.mpr hmem] at hlist
  cases hlist

theorem createNew_unique (hw : Unique w) :
    appWorld.wp (Sees (some (.attempt a))) Unique (createNew a slug) (fun _ => Unique) w := by
  refine wp_look rfl hw fun c hsees => ?_
  cases c with
  | none => exact wp_of_creates_none (interruptInternal_creates_none a) hw
  | some valid =>
    refine wp_if (fun _ => wp_of_creates_none (record_creates_none ..) hw) fun hlist => ?_
    have hfree := free_of_sees hslug hsees (by simpa using hlist)
    refine wp_look rfl hw fun c _ => wp_if (fun _ => ?_) fun _ => ?_
    · refine wp_call fun c _ => ?_
      have hcreated := hw.createApp hfree a.operation none c.1 c.2
      refine ⟨hcreated, ?_⟩
      split
      · exact wp_of_creates_none (finishCreated_creates_none ..) hcreated
      · exact wp_of_creates_none (recoverCreate_creates_none ..) hcreated
    · exact wp_of_creates_none (record_creates_none ..) hw

theorem create_unique (hw : Unique w) :
    appWorld.wp (Sees (some (.attempt a))) Unique (create a slug) (fun _ => Unique) w := by
  refine wp_look rfl hw fun c _ => ?_
  split
  next existing _ =>
    exact wp_if (fun _ => wp_of_creates_none (finishCreated_creates_none a existing) hw) fun _ =>
      createNew_unique hslug hw
  · exact createNew_unique hslug hw

theorem createPresetNew_unique {draft : Draft} (hw : Unique w) :
    appWorld.wp (Sees (some (.attempt a))) Unique (createPresetNew a slug draft)
      (fun _ => Unique) w := by
  refine wp_look rfl hw fun c hsees => ?_
  cases c with
  | none => exact hw
  | some valid =>
    refine wp_if (fun _ => wp_of_creates_none (record_creates_none ..) hw) fun hlist => ?_
    have hfree := free_of_sees hslug hsees (by simpa using hlist)
    refine wp_look rfl hw fun c _ => wp_if (fun _ => ?_) fun _ => hw
    refine wp_call fun c _ => ?_
    have hcreated := hw.createApp hfree a.operation (some draft) c.1 c.2
    refine ⟨hcreated, ?_⟩
    split
    · exact wp_of_creates_none (finishCreated_creates_none ..) hcreated
    · -- the directory was there already
      refine wp_look rfl hcreated fun c _ => ?_
      split
      · exact hcreated
      · exact wp_if (fun _ => wp_of_creates_none (record_creates_none ..) hcreated) fun _ =>
          wp_of_creates_none (finishCreated_creates_none ..) hcreated
    · exact wp_of_creates_none (interruptInternal_creates_none a) hcreated

theorem createFromPreset_unique {preset : String} (hw : Unique w) :
    appWorld.wp (Sees (some (.attempt a))) Unique (createFromPreset a slug preset)
      (fun _ => Unique) w := by
  refine wp_look rfl hw fun c _ => ?_
  split
  · exact wp_of_creates_none (record_creates_none ..) hw
  next draft _ =>
    refine wp_look rfl hw fun c _ => ?_
    split
    next existing _ =>
      exact wp_if (fun _ => wp_of_creates_none (finishCreated_creates_none a existing) hw) fun _ =>
        createPresetNew_unique hslug hw
    · exact createPresetNew_unique hslug hw

end

theorem unique_walk (hslug : a.query.request.newSlug = none) :
    Walk a [] G Unique (fun _ => Unique) Unique (fun _ _ => True) where
  crashOpen _ _ hw := hw
  crashClosed _ hw := hw
  step _ w e c _ hin hw := by
    refine hw.act (fun slug op draft heq => ?_) c
    subst heq
    obtain ⟨-, hroute | hroute⟩ := hin
    all_goals
      unfold Attempt.route at hroute
      cases hreq : a.query.request <;> rw [hreq] at hslug hroute <;> cases hroute <;> cases hslug
  stored _ _ _ _ _ _ _ _ hw := hw
  fresh _ _ _ _ := trivial
  early _ _ _ _ _ _ _ := trivial
  late _ _ _ _ _ _ _ _ _ _ _ _ := trivial
  uniform _ _ _ _ _ := trivial
  escape _ w e c _ hw hesc := by
    rw [escapes_quiet hesc]
    exact hw
  interrupt _ w c _ hw := hw.of_live (live_act w c id)
  again w c _ hw := hw.of_live (live_act w c id)
  refuse _ w _ _ _ c _ _ _ hw := hw.of_live (live_act w c id)
  succeed _ w _ _ c _ _ _ hw := hw.of_live (live_act w c id)
  finalize app w _ hw :=
    wp_of_creates_none ((finalizeAppUnregistration_only app a.operation).mono fun _ he =>
      housekeeps_creates_none he) hw

theorem handle_unique (a : Attempt) (hw : Unique w) :
    appWorld.wp (Sees (some (.attempt a))) Unique (handle a) (fun _ => Unique) w := by
  cases hslug : a.query.request.newSlug with
  | none => exact (unique_walk hslug).handle_walk hw
  | some slug =>
    unfold handle
    split
    next slug' hreq =>
      rw [hreq] at hslug
      cases hslug
      exact create_unique (by rw [hreq]; rfl) hw
    next slug' preset hreq =>
      rw [hreq] at hslug
      cases hslug
      exact createFromPreset_unique (by rw [hreq]; rfl) hw
    next hreq => rw [hreq] at hslug; cases hslug
    next hreq => rw [hreq] at hslug; cases hslug
    next hreq => rw [hreq] at hslug; cases hslug

end Handlers

/-! ## Every history -/

/-- What others write keeps the slugs: a deployment sets the desired state of an app. -/
def keepsSlug (w : Host) : Change → Bool
  | .edit metadata => w.live.all fun m => m.id != metadata.id || m.slug == metadata.slug
  | _ => true

def KeepsSlug (w : Host) (b : Change) : Prop := keepsSlug w b = true

instance (w : Host) (b : Change) : Decidable (KeepsSlug w b) :=
  inferInstanceAs (Decidable (keepsSlug w b = true))

theorem Unique.change (h : Unique w) (b : Change) (hb : KeepsSlug w b) : Unique (w.change b) := by
  cases b with
  | previews value => exact h
  | edit metadata =>
    refine h.edit _ fun m hm hid => ?_
    have hslug := List.all_eq_true.mp hb m hm
    rw [hid] at hslug
    exact (by simpa using hslug : m.slug = metadata.slug).symm
  | collect picked =>
    unfold Host.change
    dsimp only
    split <;> exact h

/-- Every step keeps the slugs unique, if a creation sees the apps that are there. -/
theorem unique_keeps : appService.Keeps Sees (fun _ _ => True) KeepsSlug (fun w _ => Unique w) where
  forget _ _ _ h := h
  forgetAll _ _ h := h
  receive arrival w ts hw := by
    cases arrival with
    | reconcile => exact hw
    | request q =>
      refine wp_call fun c _ => ⟨trivial, ?_⟩
      have hw' : Unique (Host.act w (.claim q) c).2 := hw.of_live (live_act (e := .claim q) w c id)
      split
      · exact hw'
      · exact hw'
      · split <;> exact hw'
      · exact hw'
  serve w ts i t _ hw _ := by
    cases t with
    | attempt a => exact wp_attempt_bind (handle_unique a hw) fun _ _ hw => hw
    | replayed app op =>
      exact wp_attempt_bind (wp_of_creates_none ((replayDeletion_only app op).mono fun _ he =>
        housekeeps_creates_none he) hw) fun _ _ hw => hw
    | reconcile =>
      exact wp_attempt_bind (wp_of_creates_none (reconcile_only.mono fun _ he =>
        housekeeps_creates_none he) hw) fun _ _ hw => hw
  boot w hw := by
    refine wp_attempt_bind (P := fun _ => Unique) (wp_of_creates_none ?_ hw) fun _ _ hw => hw
    refine only_call (fun _ _ _ => nofun) fun r => only_orElse_bind fun _ => ?_
    exact resumeDeletions_only.mono fun _ he => housekeeps_creates_none he
  change w _ b hb hw := hw.change b hb

/-- In every history in which no creation is checked while a directory that the scan leaves
out carries its slug, all apps have slugs of their own, and no scan reports a duplicate. -/
theorem slugs_unique {steps : List appService.Step}
    (h : Along appService.step (appService.Allowed Sees (fun _ _ => True) KeepsSlug)
      ⟨.empty, []⟩ steps) :
    Unique (play appService.step ⟨.empty, []⟩ steps).world ∧
      ∀ sound, ((play appService.step ⟨.empty, []⟩ steps).world.scanStore sound).duplicates =
        [] := by
  have hunique : Unique (play appService.step ⟨.empty, []⟩ steps).world :=
    Service.invariant unique_keeps h .nil
  exact ⟨hunique, hunique.no_duplicates⟩

/-- Every call does what it is for, and the scan finds something wrong with every directory. -/
def degraded : appWorld.Script := fun _ e =>
  match e with
  | .scanSlugs => some fun _ => false
  | e => smooth e

/-- A second app is created while the scan leaves out the first one. -/
def createdBeside (slug : String) : List appService.Step :=
  [.receive (.request sampleCreate) calm, .serve 0 calm,
    .receive (.request ⟨"create-0000000002", .create slug, "session", 2⟩) calm, .serve 0 degraded]

/-- Another slug is no matter. -/
theorem other_slug_beside_degraded :
    ((play appService.step ⟨.empty, []⟩ (createdBeside "other")).world.live.map (·.slug)) =
        ["other", "app"] ∧
      ((play appService.step ⟨.empty, []⟩ (createdBeside "other")).world.scanStore
        fun _ => true).duplicates = [] :=
  ⟨by decide +kernel, (slugs_unique (by decide +kernel)).2 _⟩

/-- The same slug is granted; once the first directory is in order again, the scan reports
both apps and neither is valid. -/
theorem slug_of_degraded_reused :
    let w := (play appService.step ⟨.empty, []⟩ (createdBeside "app")).world
    w.live.map (·.slug) = ["app", "app"] ∧
      (w.scanStore fun app => app != 0).validApps.map (·.id) = [1] ∧
      w.scanStore (fun _ => true) = ⟨[], [1, 0]⟩ := by
  decide +kernel

end SoloDock.Apps
