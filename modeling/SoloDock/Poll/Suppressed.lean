import SoloDock.Poll.Held

/-!
# A failed target stays suppressed

An attempt is followed from the read of the latest deployment over the read of the column
to the claim. A deployment of the target that is under way is the latest one, so it is
seen by the first read; one that has ended badly since is named by the column or by its
record, and the attempt meets one of them before it claims.

`failed_target_stays_suppressed` is the law for whole histories: as long as no held target
loses its last guard, no target is scheduled again after a bad end unless its manifest
was active in between. `relapse` is a history in which one does: the column has room for
one target, and the record is collected after a day.
-/

namespace SoloDock.Poll

open Lib Lib.Prog Registry Deploy Lib.World
open Webhook (PollState newPollState wake)
open Mutation (IdempotencyError)

variable {app : App} {s s' s'' : Tables}

/-! ## The calls of an attempt -/

/-- The calls that neither claim nor forget: they write the row at most, for the app's
generation. -/
def Tame (app : App) : Call → Prop
  | .publish value => value.generation = app.generation
  | .clearSuppression _ | .claimDeployment .. => False
  | _ => True

theorem publishRow_keeps {value : PollObservation} (h : Inv app s)
    (hg : value.generation = app.generation) (o : Lib.Outcome) :
    Inv app (publishRow s value o).2 ∧ Moved app s (publishRow s value o).2 := by
  unfold publishRow
  split
  next row hpublish =>
    have hkeeps := (publish_keepsColumn hg hpublish).1
    dsimp only
    split
    · exact ⟨h.withRow hkeeps, moved_withRow hkeeps⟩
    · exact ⟨h, Moved.refl s⟩
  · exact ⟨h, Moved.refl s⟩

variable {e : Call}

theorem respond_keeps (h : Inv app s) (he : Tame app e) (c : Pick e) :
    Inv app (respond app s e c).2 ∧ Moved app s (respond app s e c).2 := by
  cases e with
  | publish value => exact publishRow_keeps h he c
  | clearSuppression | claimDeployment => exact he.elim
  | readLink link =>
    cases link with
    | active | pending => exact ⟨h, Moved.refl s⟩
  | actualFact active =>
    cases c with
    | none | some => exact ⟨h, Moved.refl s⟩
  | completedForActor route key fingerprint =>
    cases c with
    | true | false => exact ⟨h, Moved.refl s⟩
  | _ => exact ⟨h, Moved.refl s⟩

/-- The invariant holds, and since `s₀` nothing was claimed or forgotten. -/
def Kept (app : App) (s₀ s : Tables) : Prop := Inv app s ∧ Moved app s₀ s

theorem Kept.trans (h : Moved app s s') (h' : Kept app s' s'') : Kept app s s'' :=
  ⟨h'.1, h.trans h'.2⟩

variable {s₀ : Tables}

theorem act_kept {c : (pollWorld app).Choice e} (he : Tame app e)
    (hfair : Fair app s e c) (h : Kept app s₀ s) : Kept app s₀ ((pollWorld app).act s e c).2 := by
  have hdeeds := deeds_keep h.1 hfair
  have hcall := respond_keeps hdeeds.1 he c.2
  exact ⟨hcall.1, h.2.trans (hdeeds.2.trans hcall.2)⟩

/-- The invariant holds at every call of the attempt, and `Q` at its end. -/
abbrev Polls (app : App) {ε α : Type} (p : Prog Call Answer ε α) (Q : Except ε α → Tables → Prop)
    (s : Tables) : Prop :=
  (pollWorld app).wp (Fair app) (Inv app) p Q s

section Rules

variable {ε α β : Type} {k : Answer e → Prog Call Answer ε β} {Q : Except ε β → Tables → Prop}
  {p : Prog Call Answer ε α}

theorem wp_tame
    (he : Tame app e) (h : Kept app s₀ s) (hk : ∀ a s', Kept app s₀ s' → Polls app (k a) Q s') :
    Polls app (ask e >>= k) Q s := by
  refine wp_call fun c hfair => ?_
  have hnext := act_kept he hfair h
  exact ⟨hnext.1, hk _ _ hnext⟩

/-- A read: its answer is that of the tables after the deeds that went before it. -/
theorem wp_read
    (hquiet : ∀ s c, (respond app s e c).2 = s) (h : Kept app s₀ s) (hk : ∀ c s', Kept app s₀ s' →
      Polls app (k (respond app s' e c).1) Q s') : Polls app (ask e >>= k) Q s := by
  refine wp_call fun c hfair => ?_
  have hdeeds := deeds_keep h.1 hfair
  have hstate : ((pollWorld app).act s e c).2 = play (apply app) s c.1 := hquiet _ _
  rw [hstate]
  exact ⟨hdeeds.1, hk c.2 _ ⟨hdeeds.1, h.2.trans hdeeds.2⟩⟩

theorem wp_run (hp : p.Only (Tame app)) (h : Kept app s₀ s) :
    Polls app p (fun _ => Kept app s₀) s :=
  wp_of_only hp (fun _ _ _ he hfair hw => act_kept he hfair hw) (fun _ hw => hw.1) h

theorem wp_end (hp : p.Only (Tame app)) (h : Kept app s₀ s) : Polls app p (fun _ => Inv app) s :=
  wp_mono (wp_run hp h) fun _ _ hw => hw.1

end Rules

variable {resolved : ResolvedImage} {metadata : PollMetadata} {etag : Option String}

/-! ## Parts that only read and record -/

section Parts

variable {generation : String} (hg : generation = app.generation)

include hg

variable {outcome : PollOutcome}

theorem recordSuccess_only :
    (recordSuccess metadata generation resolved etag outcome).Only (Tame app) := by
  refine only_call trivial fun checked => ?_
  refine only_call trivial fun seconds => ?_
  exact only_call hg fun _ => only_orStop _ _

theorem recordNotModified_only :
    (recordNotModified metadata generation outcome).Only (Tame app) := by
  refine only_call trivial fun checked => ?_
  refine only_call trivial fun seconds => ?_
  exact only_call hg fun _ => only_orStop _ _

theorem recordError_only {class_ code : String} {failures : Nat} :
    (recordError metadata generation outcome class_ code failures).Only (Tame app) := by
  refine only_call trivial fun checked => ?_
  refine only_call trivial fun seconds => ?_
  exact only_call hg fun _ => only_orStop _ _

end Parts

theorem loadLinked_only (link : Option Uuid) : (loadLinked link).Only (Tame app) := by
  cases link with
  | none => trivial
  | some id =>
    refine only_call trivial fun release => ?_
    exact only_orStop_bind fun _ => only_pure _

theorem loadIfSeen_only (previous : Option PollState) (active : Option Uuid) :
    (loadIfSeen previous active).Only (Tame app) := by
  unfold loadIfSeen
  split
  · exact loadLinked_only active
  · exact only_pure _

theorem loadCredential_only (id : Option Uuid) : (loadCredential id).Only (Tame app) := by
  cases id with
  | none => trivial
  | some id =>
    refine only_call trivial fun credential => ?_
    exact only_orStop_bind fun _ => only_pure _

variable {o : Lib.Outcome}

theorem publishRow_current {value : PollObservation}
    (hg : value.generation = app.generation) (hok : (publishRow s value o).1 = some ()) :
    current app (publishRow s value o).2.row = true := by
  unfold publishRow at hok ⊢
  split
  next row hpublish =>
    rw [hpublish] at hok
    cases o with
    | ok =>
      show current app (some row) = true
      rw [current_some, decide_eq_true_iff]
      exact (publish_keepsColumn hg hpublish).2
    | failed applied => cases hok
  next hnone =>
    rw [hnone] at hok
    cases hok

theorem recordSuccess_current {generation : String} (hg : generation = app.generation)
    {outcome : PollOutcome} (h : Kept app s₀ s) :
    Polls app (recordSuccess metadata generation resolved etag outcome)
      (fun r s' => Kept app s₀ s' ∧ (r = .ok () → current app s'.row = true)) s := by
  refine wp_tame trivial h fun checked s' h' => ?_
  refine wp_tame trivial h' fun seconds s'' h'' => ?_
  refine wp_call fun c hfair => ?_
  have hnext := act_kept (by exact hg) hfair h''
  refine ⟨hnext.1, (wp_orStop ..).mpr ⟨fun a ha => ⟨hnext, fun _ => ?_⟩, fun _ => ⟨hnext, nofun⟩⟩⟩
  exact publishRow_current hg ha

/-! ## The claim -/

/-- What an attempt knows of its target when it goes to the scheduler: no deployment of it
is under way, the column does not name it, and if the key has a suffix it is not held. -/
structure Ready (app : App) (target suffix : String) (s : Tables) : Prop where
  flight : NoFlight app target s
  column : column app s.row ≠ some target
  fresh : suffix = "" ∨ held app target s.log = false

variable {target suffix : String}

theorem Ready.moved (h : Ready app target suffix s)
    (hmoved : Moved app s s') : Ready app target suffix s' where
  flight := hmoved.flight target h.flight
  column hcol := h.column (hmoved.column target h.flight hcol)
  fresh := by
    rcases h.fresh with hplain | hfree
    · exact Or.inl hplain
    · right
      rw [Bool.eq_false_iff]
      intro hheld
      rw [hmoved.held target h.flight hheld] at hfree
      cases hfree

theorem Ready.not_held (h : Inv app s) (hready : Ready app target suffix s)
    (hfind : s.records.find? (·.key =
      keyText app.metadata.toAppMetadata app.generation target suffix)
      = none) : held app target s.log = false := by
  rw [Bool.eq_false_iff]
  intro hheld
  rcases hready.fresh with rfl | hfree
  · rcases h.guarded target hheld with hcol | hrec
    · exact hready.column hcol
    · obtain ⟨r, hr, hkey⟩ := List.any_eq_true.mp hrec
      exact List.find?_eq_none.mp hfind r hr hkey
  · rw [hheld] at hfree
    cases hfree

variable {command : ScheduleCommand}

theorem claimDeployment_inv {manifest : String} {record : Record} (h : Inv app s)
    (hready : Ready app target suffix s)
    (hcurrent : current app s.row = true) (hkey : command.idempotencyKey =
      keyText app.metadata.toAppMetadata app.generation target suffix)
    (hpolls : ∀ t, polls record app.generation t = true → t = target)
    (hscheduled : record.scheduledManifestDigest = some manifest)
    (hmanifest : isManifestOf app target manifest = true) :
    Inv app (claimDeployment s command record).2 := by
  unfold claimDeployment
  split
  · exact h
  · exact h
  next now hnow hfind =>
    split
    · exact h
    next hidle =>
      have hfinished : ∀ e ∈ s.deployments, e.unfinished = false := by simpa using hidle
      have hfree : held app target s.log = false := hready.not_held h (hkey ▸ hfind)
      -- a target that is held afterwards was held before, and is another one
      have hheld : ∀ t, held app t (.scheduled record :: s.log) = true →
          held app t s.log = true ∧ t ≠ target := by
        intro t ht
        have hbefore := held_of_cons rfl ht
        refine ⟨hbefore, fun heq => ?_⟩
        rw [heq, hfree] at hbefore
        cases hbefore
      refine { older := hfinished, running := ?_, guarded := ?_, last := ?_, inactive := ?_,
               durable := ?_ }
      · intro e he hrun t ht
        rcases List.mem_cons.mp he with rfl | he
        · obtain rfl := hpolls t ht
          exact ⟨hcurrent, manifest, hscheduled, hmanifest⟩
        · rw [hfinished e he] at hrun
          cases hrun
      · intro t ht
        rcases h.guarded t (hheld t ht).1 with hcol | hrec
        · exact Or.inl hcol
        · right
          show recorded app _ t = true
          unfold recorded at hrec ⊢
          rw [List.any_cons, hrec, Bool.or_true]
      · intro t ht e he hpoll
        obtain rfl : (⟨record, .queued⟩ : Deployment) = e := Option.some.inj he
        exact absurd (hpolls t hpoll) (hheld t ht).2
      · intro t ht
        exact h.inactive t (hheld t ht).1
      · refine ⟨fun t ht => ?_, h.durable⟩
        rw [hpolls t ht]
        exact hfree

theorem committing_inv {done : Except IdempotencyError α × Tables}
    (h : Inv app s) (hdone : Inv app done.2) : Inv app (committing o s done).2 := by
  cases o with
  | ok => exact hdone
  | failed applied =>
    cases applied with
    | true => exact hdone
    | false => exact h

theorem isManifestOf_targetKey (resolved : ResolvedImage) :
    isManifestOf app (targetKey app.metadata.toAppMetadata resolved) resolved.manifestDigest
      = true := by
  unfold isManifestOf targetKey
  rw [String.toList_append, List.isPrefixOf_iff_prefix]
  exact List.prefix_append _ _

variable {actual : Option (Uuid × String)} {active pending : Option Uuid}

theorem polls_claimedRecord {id draftRevision : Uuid} {t : String}
    (h : polls (claimedRecord command id draftRevision active pending actual) app.generation t
      = true) : t = command.scheduled.targetKey := by
  have := (polls_iff.mp h).2.2
  exact (Option.some.inj this).symm

section Scheduler

variable {draft : Uuid}
  {suffix : String}

theorem scheduleClaim_inv
    (hready : Ready app (targetKey app.metadata.toAppMetadata resolved) suffix s₀)
    (hcurrent : current app s₀.row = true) (h : Kept app s₀ s) :
    Polls app (scheduleClaim (pollCommand app.metadata app.generation resolved draft active
      pending actual
        suffix)) (fun _ => Inv app) s := by
  refine wp_tame trivial h fun free s h => wp_ensure_bind (fun _ => ?_) (fun _ => h.1)
  refine wp_tame trivial h fun free s h => wp_ensure_bind (fun _ => ?_) (fun _ => h.1)
  refine wp_tame trivial h fun metadata s h => wp_orStop_bind (fun metadata _ => ?_) (fun _ => h.1)
  refine wp_orStop_bind (fun draftRevision _ => ?_) (fun _ => h.1)
  refine wp_tame trivial h fun active s h => wp_orStop_bind (fun active _ => ?_) (fun _ => h.1)
  refine wp_tame trivial h fun pending s h => wp_orStop_bind (fun pending _ => ?_) (fun _ => h.1)
  refine wp_tame trivial h fun actual s h => wp_orElse_bind (fun actual _ => ?_) (fun _ _ => h.1)
  refine wp_ensure_bind (fun _ => ?_) (fun _ => h.1)
  refine wp_ensure_bind (fun _ => ?_) (fun _ => h.1)
  refine wp_tame trivial h fun generation s h => wp_orStop_bind (fun generation _ => ?_)
    (fun _ => h.1)
  refine wp_ensure_bind (fun _ => ?_) (fun _ => h.1)
  refine wp_tame trivial h fun keepsData s h => wp_orStop_bind (fun keepsData _ => ?_)
    (fun _ => h.1)
  refine wp_ensure_bind (fun _ => ?_) (fun _ => h.1)
  refine wp_call fun c hfair => ?_
  have hdeeds := deeds_keep h.1 hfair
  have hmoved := h.2.trans hdeeds.2
  have hclaim : Inv app ((pollWorld app).act s _ c).2 :=
    committing_inv hdeeds.1 (claimDeployment_inv hdeeds.1 (hready.moved hmoved)
      (hmoved.current hcurrent) rfl (fun t ht => polls_claimedRecord ht) rfl
      (isManifestOf_targetKey resolved))
  exact ⟨hclaim, (wp_orElse ..).mpr ⟨fun _ _ => hclaim, fun _ _ => hclaim⟩⟩

theorem schedule_inv (hready : Ready app (targetKey app.metadata.toAppMetadata resolved) suffix s₀)
    (hcurrent : current app s₀.row = true) (h : Kept app s₀ s) :
    Polls app (schedule (pollCommand app.metadata app.generation resolved draft active
      pending actual
        suffix)) (fun _ => Inv app) s := by
  refine wp_tame trivial h fun shutdown s h => wp_ensure_bind (fun _ => ?_) (fun _ => h.1)
  refine wp_tame trivial h fun completed s h => wp_orElse_bind (fun completed _ => ?_)
    (fun _ _ => h.1)
  refine wp_if (fun _ => h.1) fun _ => ?_
  exact scheduleClaim_inv hready hcurrent h

end Scheduler

/-! ## The attempt -/

section Attempt

variable {latest : Option Deployment}

theorem pollSchedule_inv
    (hready : Ready app (targetKey app.metadata.toAppMetadata resolved) suffix s₀)
    (h : Kept app s₀ s) :
    Polls app (pollSchedule app.metadata app.generation resolved etag active pending actual suffix)
      (fun _ => Inv app) s := by
  refine wp_orStop_bind (fun draft _ => ?_) (fun _ => h.1)
  refine wp_part (recordSuccess_current rfl h) (fun _ s hs => ?_) (fun _ s hs => hs.1.1)
  have hkept : Kept app s s := ⟨hs.1.1, Moved.refl s⟩
  refine wp_attempt_bind (schedule_inv (hready.moved hs.1.2) (hs.2 rfl) hkept)
    fun result s hinv => ?_
  refine wp_orStop_bind (fun outcome _ => ?_) (fun _ => hinv)
  cases outcome with
  | none => exact hinv
  | some outcome => exact wp_end (recordSuccess_only rfl) ⟨hinv, Moved.refl s⟩

/-- What the latest deployment, read at `s₀`, says about every target. -/
structure Since (app : App) (latest : Option Deployment) (s₀ : Tables) : Prop where
  flight : ∀ target, (latest.any fun d => polls d.record app.generation target && d.unfinished)
    = false → NoFlight app target s₀
  fresh : ∀ target d, latest = some d → polls d.record app.generation target = true →
    d.status = .interrupted → held app target s₀.log = false

theorem since_head (h : Inv app s) : Since app s.deployments.head? s where
  flight target hlatest := by
    intro d hd hrun
    rw [h.head hd hrun, Option.any_some, hrun, Bool.and_true] at hlatest
    exact hlatest
  fresh target d hhead hpolls hstatus := by
    rw [Bool.eq_false_iff]
    intro hheld
    exact (h.last target hheld d hhead hpolls).2 hstatus

theorem convergenceSuffix_fresh (hsince : Since app latest s₀) (target : String) :
    convergenceSuffix latest app.generation target = "" ∨ held app target s₀.log = false := by
  unfold convergenceSuffix
  split
  next d =>
    split
    next hconverge => exact Or.inr (hsince.fresh target d rfl hconverge.1 hconverge.2)
    · exact Or.inl rfl
  · exact Or.inl rfl

theorem column_ne {row : Option PollState}
    (h : row.bind (·.suppressedTargetKey) ≠ some target) : column app row ≠ some target := by
  intro hcol
  cases row with
  | none => cases hcol
  | some row =>
    rw [column_some] at hcol
    split at hcol
    · exact h hcol
    · cases hcol

theorem readable_eq_some {works : Bool} {a b : α} (h : readable works a = some b) : b = a := by
  cases works with
  | true => exact (Option.some.inj h).symm
  | false => cases h

/-- Deciding about a target keeps the invariant: what is held is not scheduled. -/
theorem pollTarget_inv (hsince : Since app latest s₀) (h : Kept app s₀ s) :
    Polls app (pollTarget app.metadata app.generation latest resolved etag active pending actual)
      (fun _ => Inv app) s := by
  refine wp_read (fun _ _ => rfl) h fun works s1 h1 => ?_
  refine wp_orStop_bind (fun row hrow => ?_) (fun _ => h1.1)
  have hkept : Kept app s1 s1 := ⟨h1.1, Moved.refl s1⟩
  refine wp_if (fun _ => wp_end (recordSuccess_only rfl) hkept) ?_
  intro hne
  refine wp_part (wp_run (loadLinked_only pending) hkept) (fun release s2 h2 => ?_)
    (fun _ _ h2 => h2.1)
  split
  · exact wp_end (recordSuccess_only rfl) h2
  · refine wp_if (fun _ => wp_end (recordSuccess_only rfl) h2) ?_
    intro hidle
    refine pollSchedule_inv ?_ h2
    have hflight := hsince.flight _ (Bool.eq_false_iff.mpr hidle)
    refine { flight := h1.2.flight _ hflight, column := ?_, fresh := ?_ }
    · exact column_ne (readable_eq_some hrow ▸ hne)
    · rcases convergenceSuffix_fresh hsince (targetKey app.metadata.toAppMetadata resolved)
        with hplain | hfree
      · exact Or.inl hplain
      · right
        rw [Bool.eq_false_iff]
        intro hheld
        rw [h1.2.held _ hflight hheld] at hfree
        cases hfree

theorem clearSuppression_inv (h : Inv app s) (hfree : held app target s.log = false) :
    Inv app (respond app s (.clearSuppression target) o).2 := by
  unfold respond
  split
  next now hnow =>
    dsimp only
    split
    · refine { toConsistent := ⟨h.older, ?_⟩, guarded := ?_, last := h.last,
               inactive := h.inactive, durable := h.durable }
      · intro d hd hrun t ht
        obtain ⟨hcur, hmanifest⟩ := h.running d hd hrun t ht
        refine ⟨?_, hmanifest⟩
        cases hrow : s.row with
        | none => rw [hrow] at hcur; cases hcur
        | some row =>
          rw [hrow] at hcur
          simp only [Option.map_some, current_some, clearSuppressionIfTarget] at hcur ⊢
          split
          · exact hcur
          · exact hcur
      · intro t ht
        rcases h.guarded t ht with hcol | hrec
        · left
          have hne : t ≠ target := by
            intro heq
            rw [heq, hfree] at ht
            cases ht
          cases hrow : s.row with
          | none => rw [hrow] at hcol; cases hcol
          | some row =>
            rw [hrow] at hcol
            have hrest : clearSuppressionIfTarget target now row = row := by
              refine if_neg fun heq => hne ?_
              rw [column_some] at hcol
              split at hcol
              · exact Option.some.inj (hcol.symm.trans heq)
              · cases hcol
            rw [Option.map_some, hrest]
            exact hcol
        · exact Or.inr hrec
    · exact h
  · exact h

theorem pollUnchanged_inv {activeId : Uuid} {release : Release}
    (hshown : Shown app (targetKey app.metadata.toAppMetadata resolved) s₀) (h : Kept app s₀ s) :
    Polls app (pollUnchanged app.metadata app.generation resolved etag activeId release
      pending actual)
      (fun _ => Inv app) s := by
  refine wp_if (fun _ => wp_end (recordSuccess_only rfl) h) fun _ => ?_
  refine wp_call fun c hfair => ?_
  have hdeeds := deeds_keep h.1 hfair
  have hfree := ((h.2.trans hdeeds.2).shown _ hshown).1
  have hclear := clearSuppression_inv (o := c.2) hdeeds.1 hfree
  exact ⟨hclear, wp_end (recordSuccess_only rfl) ⟨hclear, Moved.refl _⟩⟩

theorem shown_of_active (h : Inv app s) {target : String}
    (hactive : (s.activeManifest app).any (isManifestOf app target) = true) :
    Shown app target s := by
  refine ⟨?_, fun _ _ _ _ => hactive⟩
  rw [Bool.eq_false_iff]
  intro hheld
  rw [h.inactive target hheld] at hactive
  cases hactive

theorem loadLinked_run {s1 : Tables} (link : Option Uuid) (h : Kept app s1 s) :
    Polls app (loadLinked link) (fun r s' => Kept app s1 s' ∧ ∀ loaded, r = .ok loaded →
        loaded = link.map fun id => (id, app.release id)) s := by
  cases link with
  | none =>
    refine ⟨h, ?_⟩
    intro loaded hloaded
    cases hloaded
    rfl
  | some id =>
    refine wp_read (fun _ _ => rfl) h fun works s' h' => ?_
    refine wp_orStop_bind (fun release hrelease => ⟨h', ?_⟩) (fun _ => ⟨h', nofun⟩)
    intro loaded hloaded
    cases hloaded
    rw [readable_eq_some hrelease]
    rfl

theorem pollResolved_inv (hsince : Since app latest s₀) (h : Kept app s₀ s) :
    Polls app (pollResolved app.generation latest resolved etag) (fun _ => Inv app) s := by
  refine wp_read (fun _ _ => rfl) h fun works s h => ?_
  refine wp_orStop_bind (fun fresh hfresh => ?_) (fun _ => h.1)
  obtain rfl := readable_eq_some hfresh
  refine wp_tame trivial h fun current s h => wp_orStop_bind (fun current _ => ?_) (fun _ => h.1)
  refine wp_if (fun _ => h.1) fun _ => ?_
  refine wp_read (fun _ _ => rfl) h fun works s1 h1 => ?_
  refine wp_orStop_bind (fun active hactive => ?_) (fun _ => h1.1)
  obtain rfl := readable_eq_some hactive
  have hkept : Kept app s1 s1 := ⟨h1.1, Moved.refl s1⟩
  refine wp_tame trivial hkept fun pending s h => wp_orStop_bind (fun pending _ => ?_)
    (fun _ => h.1)
  refine wp_tame trivial h fun actual s h => ?_
  split
  · exact wp_end (recordSuccess_only rfl) h
  next actual =>
    refine wp_part (loadLinked_run s1.active h) (fun loaded s hs => ?_) (fun _ _ hs => hs.1.1)
    obtain ⟨h, hloaded⟩ := hs
    have hloaded := hloaded loaded rfl
    have htarget :
      Polls app (pollTarget app.metadata app.generation latest resolved etag s1.active pending
      actual)
      (fun _ => Inv app) s := pollTarget_inv hsince (Kept.trans h1.2 h)
    split
    next activeId release =>
      refine wp_if (fun hmanifest => ?_) fun _ => htarget
      refine pollUnchanged_inv (shown_of_active h1.1 ?_) h
      cases hlink : s1.active with
      | none => rw [hlink] at hloaded; cases hloaded
      | some id =>
        rw [hlink] at hloaded
        cases hloaded
        show (s1.active.map fun id => (app.release id).manifestDigest).any _ = true
        rw [hlink, Option.map_some, Option.any_some, hmanifest]
        exact isManifestOf_targetKey resolved
    · exact htarget

variable {image : ImageReference}

theorem pollNotModified_inv {previous : Option PollState} {platform : Platform}
    {credential : Option (String × String)} (hsince : Since app latest s₀)
    (h : Kept app s₀ s) :
    Polls app (pollNotModified app.generation latest previous image platform credential)
      (fun _ => Inv app) s := by
  refine wp_read (fun _ _ => rfl) h fun works s h => ?_
  refine wp_orStop_bind (fun fresh hfresh => ?_) (fun _ => h.1)
  obtain rfl := readable_eq_some hfresh
  refine wp_tame trivial h fun current s h => wp_orStop_bind (fun current _ => ?_) (fun _ => h.1)
  refine wp_if (fun _ => h.1) fun _ => ?_
  refine wp_tame trivial h fun active s h => wp_orStop_bind (fun active _ => ?_) (fun _ => h.1)
  refine wp_tame trivial h fun pending s h => wp_orStop_bind (fun pending _ => ?_) (fun _ => h.1)
  refine wp_tame trivial h fun actual s h => ?_
  refine wp_part (wp_run (loadIfSeen_only previous active) h) (fun loaded s h => ?_)
    (fun _ _ h => h.1)
  split
  · exact wp_end (recordNotModified_only rfl) h
  · refine wp_tame trivial h fun result s h => ?_
    split
    · exact h.1
    next result => exact wp_orStop_bind (fun _ _ => pollResolved_inv hsince h) (fun _ => h.1)

theorem pollRegistry_inv {credential : Option Credential} (hsince : Since app latest s₀)
    (h : Kept app s₀ s) :
    Polls app (pollRegistry metadata app.generation latest image credential)
      (fun _ => Inv app) s := by
  refine wp_tame trivial h fun probe s h => wp_orStop_bind (fun probe _ => ?_) (fun _ => h.1)
  refine wp_orStop_bind (fun os _ => ?_) (fun _ => h.1)
  refine wp_orStop_bind (fun architecture _ => ?_) (fun _ => h.1)
  refine wp_orStop_bind (fun platform _ => ?_) (fun _ => h.1)
  refine wp_tame trivial h fun row s h => wp_orStop_bind (fun previous _ => ?_) (fun _ => h.1)
  refine wp_tame trivial h fun result s h => ?_
  split
  · exact h.1
  · exact pollResolved_inv hsince h
  · exact pollNotModified_inv hsince h
  · exact wp_end (recordError_only rfl) h

theorem pollApp_inv (hsince : Since app latest s₀) (h : Kept app s₀ s) :
    Polls app (pollApp metadata app.generation latest) (fun _ => Inv app) s := by
  unfold pollApp
  split
  · exact h.1
  · split
    · exact wp_end (recordError_only rfl) h
    · refine wp_part (wp_run (loadCredential_only metadata.credentialRef) h)
        (fun credential s h => ?_) (fun _ _ h => h.1)
      refine wp_if (fun _ => ?_) fun _ => pollRegistry_inv hsince h
      exact wp_end (recordError_only rfl) h

theorem pollOne_inv (due : DueEntry) (h : Inv app s) :
    Polls app (pollOne due) (fun _ => Inv app) s := by
  have h : Kept app s s := ⟨h, Moved.refl s⟩
  refine wp_tame trivial h fun metadata s h => wp_orStop_bind (fun metadata _ => ?_) (fun _ => h.1)
  refine wp_read (fun _ _ => rfl) h fun works s h => ?_
  refine wp_orStop_bind (fun generation hgeneration => ?_) (fun _ => h.1)
  obtain rfl := readable_eq_some hgeneration
  refine wp_if (fun _ => h.1) fun _ => ?_
  refine wp_read (fun _ _ => rfl) h fun works s h => ?_
  refine wp_orStop_bind (fun latest hlatest => ?_) (fun _ => h.1)
  obtain rfl := readable_eq_some hlatest
  have hkept : Kept app s s := ⟨h.1, Moved.refl s⟩
  refine wp_if (fun _ => wp_end (recordError_only rfl) hkept) fun _ => ?_
  exact pollApp_inv (since_head h.1) hkept

end Attempt

/-! ## Histories -/

/-- The condition on a step of a history. -/
def Spares (app : App) (s : Tables) : Step app → Prop
  | .attempt due o => (pollWorld app).Meets (Fair app) o 0 (pollOne due) s
  | .crash due calls o => (pollWorld app).MeetsCut (Fair app) o 0 calls (pollOne due) s
  | .deed deed => spares app s deed = true
  | _ => True

theorem interrupt_inv (h : Inv app s) : Inv app (interruptNonterminal s) := by
  have hfinished : ∀ e ∈ (interruptNonterminal s).deployments, e.unfinished = false := by
    intro e he
    obtain ⟨d, -, rfl⟩ := List.mem_map.mp he
    split
    · rfl
    next hrun => exact Bool.eq_false_iff.mpr hrun
  refine { older := fun e he => hfinished e (List.mem_of_mem_tail he), running := ?_,
           guarded := h.guarded, last := ?_, inactive := h.inactive, durable := h.durable }
  · intro e he hrun
    rw [hfinished e he] at hrun
    cases hrun
  · intro t ht e he hpolls
    refine ⟨hfinished e (List.mem_of_mem_head? he), ?_⟩
    -- the latest deployment of a held target had ended, and is not touched
    have he : (s.deployments.map _).head? = some e := he
    rw [List.head?_map, Option.map_eq_some_iff] at he
    obtain ⟨d, hd, rfl⟩ := he
    have hrecord : polls d.record app.generation t = true := by
      split at hpolls
      · exact hpolls
      · exact hpolls
    obtain ⟨hdone, hstatus⟩ := h.last t ht d hd hrecord
    rw [if_neg (Bool.eq_false_iff.mp hdone)]
    exact hstatus

/-- Every step that spares the rows keeps the invariant. -/
theorem step_inv {a : Step app} (h : Inv app s) (ha : Spares app s a) : Inv app (step app s a) := by
  cases a with
  | attempt due o => exact wp_exec o 0 (pollOne_inv due h) ha
  | crash due calls o => exact interrupt_inv (wp_cut o 0 calls h (pollOne_inv due h) ha)
  | disable o => exact (publishRow_keeps h rfl o).1
  | firstDue due =>
    unfold step
    dsimp only
    split
    next due now _ _ =>
      split
      · exact h
      next hrow => exact h.withRow (firstDue_keepsColumn due now (Bool.eq_false_iff.mpr hrow))
    · exact h
  | acknowledge captured =>
    unfold step
    dsimp only
    split
    next now hnow => exact h.withRow (acknowledge_keepsColumn captured now s.row)
    · exact h
  | deed deed => exact (apply_keeps h ha).1
  | restart => exact interrupt_inv h

/-- After a bad end of a target, the target is not scheduled again unless its manifest was
active at the end or has become active since. -/
def StaysSuppressed (app : App) (log : List Note) : Prop :=
  ∀ (target : String) (later between earlier : List Note) (scheduled ended : Record)
    (status : Status) (active : Option String),
    log = later ++ .scheduled scheduled :: (between ++ .ended ended status active :: earlier) →
    polls ended app.generation target = true → suppresses status = true →
    polls scheduled app.generation target = true →
    ∃ note ∈ between ++ [.ended ended status active], note.shows app target = true

theorem shown_of_not_held {between earlier : List Note} {note : Note}
    (hbad : note.endsBadly app target = true)
    (h : held app target (between ++ note :: earlier) = false) :
    ∃ n ∈ between ++ [note], n.shows app target = true := by
  induction between with
  | nil =>
    refine ⟨note, by simp, ?_⟩
    simpa [held, hbad] using h
  | cons first rest ih =>
    by_cases hfirst : first.shows app target = true
    · exact ⟨first, by simp, hfirst⟩
    · have hrest : held app target (rest ++ note :: earlier) = false := by
        rw [Bool.eq_false_iff]
        intro hheld
        rw [List.cons_append, Bool.eq_false_iff] at h
        exact h (held_cons.mpr ⟨Bool.eq_false_iff.mpr hfirst, Or.inr hheld⟩)
      obtain ⟨n, hn, hshows⟩ := ih hrest
      exact ⟨n, List.mem_cons_of_mem _ hn, hshows⟩

/-- A log in which no held target was scheduled keeps bad targets suppressed. -/
theorem Durable.stays {log : List Note} (h : Durable app log) : StaysSuppressed app log := by
  intro target later between earlier scheduled ended status active hlog hended hbad hscheduled
  subst hlog
  induction later with
  | nil =>
    refine shown_of_not_held ?_ (h.1 target hscheduled)
    simp [Note.endsBadly, hbad, hended]
  | cons note later ih =>
    cases note with
    | scheduled record => exact ih h.2
    | ended | activated => exact ih h

/-- In every history in which no held target loses its last guard, a target that has ended
badly under the app's generation is not scheduled again under it unless its manifest was
active in between. -/
theorem failed_target_stays_suppressed (app : App) (s : Tables) (hs : Consistent app s)
    (hlog : s.log = []) (steps : List (Step app))
    (hsteps : Along (step app) (Spares app) s steps) :
    StaysSuppressed app (play (step app) s steps).log :=
  (Along.invariant (fun _ _ ha h => step_inv h ha) hsteps (hs.inv hlog)).durable.stays

/-! ## Two targets that fail, and a day -/

instance decidableFair (app : App) (s : Tables) (e : Call) (c : (pollWorld app).Choice e) :
    Decidable (Fair app s e c) :=
  inferInstanceAs (Decidable (Along ..))

instance decidableSpares (app : App) (s : Tables) : ∀ a : Step app, Decidable (Spares app s a)
  | .attempt _ _ => inferInstanceAs (Decidable (World.Meets ..))
  | .crash _ _ _ => inferInstanceAs (Decidable (World.MeetsCut ..))
  | .deed _ => inferInstanceAs (Decidable (_ = true))
  | .disable _ | .firstDue _ | .acknowledge _ | .restart => .isTrue trivial

/-- An app that follows a tag and was never deployed. -/
def followed : App where
  metadata :=
    { id := 1
      slug := "web"
      discoveryImageRef := some "registry.example.com/team/web:stable"
      credentialRef := none
      draftRevision := some 2
      draftConfigSha256 := some "c0ffee"
      autoDeployEnabled := true
      pollIntervalSeconds := 300 }
  generation := "generation"
  release id :=
    { schemaVersion := 2
      composeSchemaVersion := 1
      id
      appId := 1
      configRevision := 2
      configSha256 := "c0ffee"
      stopGracePeriodSeconds := 10
      serviceDiscoveryEnabled := false
      sourceImageRef := "registry.example.com/team/web:stable"
      logicalRegistry := "registry.example.com"
      repository := "team/web"
      sourceTag := "stable"
      sourceDescriptorDigest := "sha256:0"
      indexDigest := none
      manifestDigest := "sha256:0"
      runnableImageRef := "registry.example.com/team/web@sha256:0"
      platformOs := "linux"
      platformArchitecture := "amd64"
      platformVariant := none
      localImageId := "sha256:0"
      composeSha256 := "sha256:0"
      credentialRef := none
      trigger := .manual
      sourceReleaseId := none
      createdAt := "2026-01-01T00:00:00Z"
      integrityHmac := "" }

/-- The image the tag names at some time. -/
def tagged (manifest : String) : ResolvedImage where
  sourceImageRef := "registry.example.com/team/web:stable"
  logicalRegistry := "registry.example.com"
  repository := "team/web"
  sourceTag := "stable"
  sourceDescriptorDigest := manifest
  indexDigest := none
  manifestDigest := manifest
  runnableImageRef := "registry.example.com/team/web@" ++ manifest
  platform := { os := "linux", architecture := "amd64", variant := none }
  localImageId := manifest

/-- An attempt in which everything works and the tag names the manifest; a deployment it
schedules gets the id. -/
def finds (manifest : String) (id : Uuid) : (e : Call) → Pick e
  | .readMetadata | .pollGeneration _ | .latestDeployment | .pollState | .readLink _
  | .loadRelease _ | .completedForActor .. | .tryApp | .tryComposeOwned => true
  | .cancelled => false
  | .loadCredential _ => none
  | .probe => some { os := some "linux", architecture := some "amd64", dockerRootDirectory := none }
  | .resolvePoll .. => some (.ok (.modified (tagged manifest) none))
  | .resolve .. => some (.ok (tagged manifest))
  | .actualFact _ => none
  | .clearSuppression _ => .ok
  | .now => ()
  | .intervalWithJitter .. => (300 : Nat)
  | .publish _ => .ok
  | .loadConfig _ => some false
  | .claimDeployment .. => (id, .ok)

def attemptOn (manifest : String) (id : Uuid) : Step followed :=
  .attempt { generation := "generation", webhookSequence := 0 } fun _ e => ([], finds manifest id e)

/-- A new app, on the first of January 2026. -/
def newApp : Tables where
  now := 1767225600000000000
  row := none
  deployments := []
  records := []
  active := none
  pending := none
  actual := none
  log := []

/-- Two targets fail, one after the other. -/
def twoFailures : List (Step followed) :=
  [attemptOn "sha256:1" 11, .deed (.transition 11 .failed),
   attemptOn "sha256:2" 12, .deed (.transition 12 .rolledBack)]

/-- A day later the record of the first is collected, and the tag names it again. -/
def relapse : List (Step followed) :=
  twoFailures ++
    [.deed (.pass 90000000000000), .deed (.collect [11]), attemptOn "sha256:1" 13]

theorem newApp_consistent : Consistent followed newApp where
  older _ hd := absurd hd List.not_mem_nil
  running _ hd := absurd hd List.not_mem_nil

/-- The tag names the first target again on the same day. -/
def sameDay : List (Step followed) := twoFailures ++ [attemptOn "sha256:1" 13]

/-- On the same day the first target is still guarded by its record. -/
theorem first_target_still_suppressed :
    Along (step followed) (Spares followed) newApp sameDay ∧
      (play (step followed) newApp sameDay).deployments.map (·.record.id) = [12, 11] ∧
      StaysSuppressed followed (play (step followed) newApp sameDay).log := by
  have hfair : Along (step followed) (Spares followed) newApp sameDay := by decide +kernel
  have hlog : newApp.log = [] := rfl
  refine ⟨hfair, by decide +kernel, ?_⟩
  exact failed_target_stays_suppressed followed newApp newApp_consistent hlog sameDay hfair

/-- The deployment of the first target under an id. -/
def relapsed (id : Uuid) : Record :=
  claimedRecord
    (pollCommand followed.metadata followed.generation (tagged "sha256:1") 2 none none none "")
    id 2 none none none

theorem relapse_log : (play (step followed) newApp relapse).log = [] ++ .scheduled (relapsed 13) ::
    ((play (step followed) newApp relapse).log.tail.take 2 ++
      .ended (relapsed 11) .failed none :: [.scheduled (relapsed 11)]) := by
  decide +kernel

/-- The deployments of `relapse`: the first target, the second, and the first again. -/
theorem failed_target_scheduled_again :
    ((play (step followed) newApp relapse).deployments.map fun d =>
      (d.record.scheduledManifestDigest, d.status)) =
      [(some "sha256:1", .queued), (some "sha256:2", .rolledBack), (some "sha256:1", .failed)] ∧
      ¬StaysSuppressed followed (play (step followed) newApp relapse).log := by
  refine ⟨by decide +kernel, ?_⟩
  intro h
  obtain ⟨note, hnote, hshows⟩ := h (targetKey followed.metadata.toAppMetadata (tagged "sha256:1"))
    [] _ _ (relapsed 13) (relapsed 11) .failed none relapse_log
    (by decide +kernel) rfl (by decide +kernel)
  revert note
  decide +kernel

end SoloDock.Poll
