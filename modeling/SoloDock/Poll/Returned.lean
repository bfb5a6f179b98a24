import SoloDock.Poll.Suppressed

/-!
# A tag that moves

The tag of a followed app moved: an attempt resolves a manifest that is not the active
one, and nothing stands in the way of its deployment. Whether the attempt schedules it is
then up to the idempotency records of the app's poll route. The key of a target is taken
of the app, the generation and the target, so a tag that moved away and came back finds
the record of its earlier deployment as long as that is kept.
-/

namespace SoloDock.Poll

open Lib Lib.Prog Registry Deploy Lib.World
open Webhook (PollState newPollState wake)
open Mutation (IdempotencyError)

variable (app : App)

/-- The image is not the active one and nothing else forbids its deployment: the app is
deployed automatically and configured, the target is not suppressed, no release is pending,
the container is of the active release, and no deployment is under way. -/
structure TagMoved (resolved : ResolvedImage) (s : Tables) : Prop where
  automatic : app.metadata.autoDeployEnabled = true
  configured : app.metadata.draftRevision.isSome = true
  other : s.activeManifest app ≠ some resolved.manifestDigest
  unsuppressed : s.row.bind (·.suppressedTargetKey) ≠
    some (targetKey app.metadata.toAppMetadata resolved)
  unpended : s.pending = none
  running : s.actual.map (·.1) = s.active
  idle : s.deployments.any (·.unfinished) = false

/-- The key the attempt schedules the image under. -/
def keyOf (resolved : ResolvedImage) (s : Tables) : String :=
  let target := targetKey app.metadata.toAppMetadata resolved
  keyText app.metadata.toAppMetadata app.generation target
    (convergenceSuffix s.deployments.head? app.generation target)

/-- A deployment of the image was added. -/
def Scheduled (resolved : ResolvedImage) (s s' : Tables) : Prop :=
  ∃ record : Record, s'.deployments = ⟨record, .queued⟩ :: s.deployments ∧
    polls record app.generation (targetKey app.metadata.toAppMetadata resolved) = true ∧
    record.scheduledManifestDigest = some resolved.manifestDigest

/-! ## An attempt that is left alone -/

/-- Since `s₀`, others have left alone what the attempt reads. They may have woken the app,
and time may have passed. -/
structure Undisturbed (target : String) (s₀ s : Tables) : Prop where
  deployments : s.deployments = s₀.deployments
  records : s.records = s₀.records
  active : s.active = s₀.active
  pending : s.pending = s₀.pending
  actual : s.actual = s₀.actual
  unsuppressed : s.row.bind (·.suppressedTargetKey) ≠ some target

/-- The call is answered: no read or write fails, both locks are free, and the process is
not shutting down. -/
def Served : (e : Call) → Answer e → Prop
  | .readMetadata, (a : Option PollMetadata) => a.isSome = true
  | .pollGeneration _, (a : Option String) => a.isSome = true
  | .pollState, (a : Option (Option PollState)) => a.isSome = true
  | .readLink _, (a : Option (Option Uuid)) => a.isSome = true
  | .actualFact _, (a : Except ActualError (Option (Uuid × String))) => a.toOption.isSome = true
  | .loadRelease _, (a : Option Release) => a.isSome = true
  | .publish _, (a : Option Unit) => a.isSome = true
  | .cancelled, (a : Bool) => a = false
  | .completedForActor .., (a : Except IdempotencyError Bool) => a ≠ .error .database
  | .tryApp, (a : Bool) => a = true
  | .tryComposeOwned, (a : Bool) => a = true
  | .loadConfig _, (a : Option Bool) => a.isSome = true
  | .claimDeployment .., (a : Except IdempotencyError ScheduleResult) => a ≠ .error .database
  | _, _ => True

/-- The condition on the calls of such an attempt. -/
def LeftAlone (target : String) (s₀ s : Tables) (e : Call) (c : (pollWorld app).Choice e) : Prop :=
  Undisturbed target s₀ (play (apply app) s c.1) ∧ Served e ((pollWorld app).act s e c).1

/-- Whatever happens between the calls of such an attempt, it ends in `Q`. -/
abbrev Serves (target : String) (s₀ : Tables) {ε α : Type} (p : Prog Call Answer ε α)
    (Q : Except ε α → Tables → Prop) (s : Tables) : Prop :=
  (pollWorld app).wp (LeftAlone app target s₀) (fun _ => True) p Q s

variable {app} {s s₀ : Tables} {target : String}

section Rules

variable {ε α β : Type} {Q : Except ε β → Tables → Prop}

theorem wp_reads {e : Call} {k : Answer e → Prog Call Answer ε β} (v : Answer e)
    (hquiet : ∀ s c, (respond app s e c).2 = s)
    (hanswer : ∀ s c, Undisturbed target s₀ s → Served e (respond app s e c).1 →
      (respond app s e c).1 = v) (hk : ∀ s, Undisturbed target s₀ s →
      Serves app target s₀ (k v) Q s) : Serves app target s₀ (ask e >>= k) Q s := by
  refine wp_call fun c hc => ⟨trivial, ?_⟩
  have hstate : ((pollWorld app).act s e c).2 = play (apply app) s c.1 := hquiet _ _
  have hvalue : ((pollWorld app).act s e c).1 = v := hanswer _ _ hc.1 hc.2
  rw [hstate, hvalue]
  exact hk _ hc.1

theorem wp_gets {e : Call} {o : Answer e → Option α} {err : ε} {k : α → Prog Call Answer ε β}
    (v : α) (hquiet : ∀ s c, (respond app s e c).2 = s)
    (hanswer : ∀ s c, Undisturbed target s₀ s → Served e (respond app s e c).1 →
      o (respond app s e c).1 = some v) (hk : ∀ s, Undisturbed target s₀ s →
      Serves app target s₀ (k v) Q s) :
    Serves app target s₀ (ask e >>= fun r => orStop (o r) err >>= k) Q s := by
  refine wp_call fun c hc => ⟨trivial, ?_⟩
  have hstate : ((pollWorld app).act s e c).2 = play (apply app) s c.1 := hquiet _ _
  have hvalue : o ((pollWorld app).act s e c).1 = some v := hanswer _ _ hc.1 hc.2
  rw [hstate, hvalue]
  exact hk _ hc.1

end Rules

theorem readable_of_isSome {works : Bool} {a : α}
    (h : (readable works a).isSome = true) : readable works a = some a := by
  cases works with
  | true => rfl
  | false => cases h

theorem publish_unsuppressed {value : PollObservation} {now : Instant} {row : Option PollState}
    {row' : PollState} (h : publish value now row = some row')
    (hrow : row.bind (·.suppressedTargetKey) ≠ some target) :
    row'.suppressedTargetKey ≠ some target := by
  obtain ⟨next, checked, text, ⟨rfl, rfl⟩ | ⟨row, rfl, rfl⟩⟩ := publish_cases h
  · exact nofun
  · show (if row.generation ≠ value.generation then none else row.suppressedTargetKey) ≠ _
    split
    · exact nofun
    · exact hrow

theorem Undisturbed.publish (h : Undisturbed target s₀ s) (value : PollObservation)
    (o : Lib.Outcome) : Undisturbed target s₀ (publishRow s value o).2 := by
  unfold publishRow
  split
  next row hpublish =>
    split
    · exact { h with unsuppressed := publish_unsuppressed hpublish h.unsuppressed }
    · exact h
  · exact h

variable {resolved : ResolvedImage}

theorem recordSuccess_served {metadata : PollMetadata} {generation : String}
    {etag : Option String} {outcome : PollOutcome} :
    Serves app target s₀ (recordSuccess metadata generation resolved etag outcome)
      (fun r s => r = .ok () ∧ Undisturbed target s₀ s) s := by
  refine wp_call fun _ _ => ⟨trivial, wp_call fun _ _ => ⟨trivial, ?_⟩⟩
  refine wp_call fun c hc => ⟨trivial, (wp_orStop ..).mpr ⟨fun _ _ => ?_, fun hnone => ?_⟩⟩
  · exact ⟨rfl, hc.1.publish _ _⟩
  · have hsome : Option.isSome (α := Unit) _ = true := hc.2
    rw [hnone] at hsome
    cases hsome

section Schedule

/-- What the records decide. -/
def Decided (app : App) (resolved : ResolvedImage) (s₀ s : Tables) : Prop :=
  ((∃ r ∈ s₀.records, r.key = keyOf app resolved s₀) → s.deployments = s₀.deployments) ∧
    ((∀ r ∈ s₀.records, r.key ≠ keyOf app resolved s₀) → Scheduled app resolved s₀ s)

/-- The command of the attempt, where the tables are like `s₀`. -/
def commandAt (app : App) (resolved : ResolvedImage) (s₀ : Tables) (draft : Uuid) :
    ScheduleCommand :=
  pollCommand app.metadata app.generation resolved draft s₀.active s₀.pending s₀.actual
    (convergenceSuffix s₀.deployments.head? app.generation
      (targetKey app.metadata.toAppMetadata resolved))

theorem actualFact_of_served {active : Option Uuid} {err : Option ActualError}
    (hserved : Served (.actualFact active) (respond app s (.actualFact active) err).1) :
    (respond app s (.actualFact active) err).1 = .ok s.actual := by
  cases err with
  | none => rfl
  | some err => cases hserved

theorem find?_key_eq_none {records : List KeyRecord} {key : String}
    (h : ∀ r ∈ records, r.key ≠ key) : records.find? (·.key = key) = none := by
  rw [List.find?_eq_none]
  intro r hr hkey
  exact h r hr (of_decide_eq_true hkey)

theorem claimDeployment_free {command : ScheduleCommand} (record : Record) {now : String}
    (hnow : rfc3339 s.now = some now)
    (hfree : s.records.find? (·.key = command.idempotencyKey) = none)
    (hidle : s.deployments.any (·.unfinished) = false) :
    (claimDeployment s command record).1 = .ok (.scheduled record.id) ∧
      (claimDeployment s command record).2.deployments = ⟨record, .queued⟩ :: s.deployments := by
  simp only [claimDeployment, hnow, hfree, hidle]
  exact ⟨rfl, rfl⟩

theorem claimDeployment_served (h : TagMoved app resolved s₀) (hs : Undisturbed target s₀ s)
    (hfree : ∀ r ∈ s₀.records, r.key ≠ keyOf app resolved s₀) (draft id : Uuid) (o : Lib.Outcome) :
    let done := committing o s (claimDeployment s (commandAt app resolved s₀ draft)
      (claimedRecord (commandAt app resolved s₀ draft) id draft s₀.active s₀.pending s₀.actual))
    done.1 ≠ .error .database → done.1 = .ok (.scheduled id) ∧
      Scheduled app resolved s₀ done.2 := by
  intro done hdone
  cases o with
  | failed applied => exact absurd rfl hdone
  | ok =>
    have hfind : s.records.find? (·.key = (commandAt app resolved s₀ draft).idempotencyKey) =
        none := by
      rw [hs.records]
      exact find?_key_eq_none hfree
    have hidle : s.deployments.any (·.unfinished) = false := by
      rw [hs.deployments]
      exact h.idle
    cases hnow : rfc3339 s.now with
    | none =>
      refine absurd ?_ hdone
      simp only [done, committing, claimDeployment, hnow]
    | some now =>
      obtain ⟨hanswer, hadded⟩ := claimDeployment_free (claimedRecord
        (commandAt app resolved s₀ draft) id draft s₀.active s₀.pending s₀.actual) hnow hfind hidle
      rw [hs.deployments] at hadded
      exact ⟨hanswer, _, hadded, polls_iff.mpr ⟨rfl, rfl, rfl⟩, rfl⟩

theorem scheduleClaim_served (h : TagMoved app resolved s₀)
    (hfree : ∀ r ∈ s₀.records, r.key ≠ keyOf app resolved s₀) {draft : Uuid}
    (hdraft : app.metadata.draftRevision = some draft) :
    Serves app target s₀ (scheduleClaim (commandAt app resolved s₀ draft))
      (fun r s => (∃ id, r = .ok (.scheduled id)) ∧ Scheduled app resolved s₀ s) s := by
  refine wp_reads true (fun _ _ => rfl) (fun _ _ _ hserved => hserved) fun s _ => ?_
  refine wp_ensure_bind (fun _ => ?_) (fun hbusy => absurd hbusy nofun)
  refine wp_reads true (fun _ _ => rfl) (fun _ _ _ hserved => hserved) fun s _ => ?_
  refine wp_ensure_bind (fun _ => ?_) (fun hbusy => absurd hbusy nofun)
  refine wp_gets app.metadata (fun _ _ => rfl) (fun _ _ _ => readable_of_isSome) fun s _ => ?_
  refine wp_orStop_bind (fun found hfound => ?_)
    (fun hnone => absurd (hdraft.symm.trans hnone) nofun)
  obtain rfl : draft = found := Option.some.inj (hdraft.symm.trans hfound)
  refine wp_gets s₀.active (fun _ _ => rfl)
    (fun _ _ hs hserved => hs.active ▸ readable_of_isSome hserved) fun s _ => ?_
  refine wp_gets s₀.pending (fun _ _ => rfl)
    (fun _ _ hs hserved => hs.pending ▸ readable_of_isSome hserved) fun s _ => ?_
  refine wp_reads (.ok s₀.actual) (fun _ c => by cases c <;> rfl)
    (fun _ _ hs hserved => hs.actual ▸ actualFact_of_served hserved) fun s _ => ?_
  refine wp_orElse_bind (fun actual hactual => ?_) (fun _ herr => absurd herr nofun)
  obtain rfl : s₀.actual = actual := Except.ok.inj hactual
  refine wp_ensure_bind (fun _ => ?_)
    (fun hchanged => absurd hchanged (by simp [factsMatch, commandAt, pollCommand]))
  refine wp_ensure_bind (fun _ => ?_) (fun hmanual => absurd (h.automatic.symm.trans hmanual) nofun)
  refine wp_gets app.generation (fun _ _ => rfl) (fun _ _ _ => readable_of_isSome) fun s _ => ?_
  refine wp_ensure_bind (fun _ => ?_)
    (fun hother => absurd hother (by simp [commandAt, pollCommand]))
  refine wp_call fun c hc => ⟨trivial, wp_orStop_bind (fun keepsData _ => ?_) fun hnone => ?_⟩
  · refine wp_ensure_bind (fun _ => ?_) (fun hack => absurd hack (by simp [commandAt, pollCommand]))
    refine wp_call fun c hc => ⟨trivial, ?_⟩
    have hclaim := claimDeployment_served h hc.1 hfree draft c.2.1 c.2.2 hc.2
    refine (wp_orElse ..).mpr ⟨fun result hresult => ?_, fun err herr => ?_⟩
    · have hscheduled := Except.ok.inj (hresult.symm.trans hclaim.1)
      exact ⟨⟨c.2.1, congrArg Except.ok hscheduled⟩, hclaim.2⟩
    · exact absurd (herr.symm.trans hclaim.1) nofun
  · have hsome : Option.isSome (α := Bool) _ = true := hc.2
    rw [hnone] at hsome
    cases hsome

/-- Where the key has a record, the scheduler answers with it or refuses the key. -/
theorem completedForActor_recorded {key : String} (h : ∃ r ∈ s.records, r.key = key)
    (fingerprint : String) : completedForActor s key fingerprint = .ok true ∨
      completedForActor s key fingerprint = .error .reused := by
  unfold completedForActor
  split
  next r _ =>
    by_cases hsame : r.fingerprint = fingerprint
    · rw [if_pos hsame]
      exact .inl rfl
    · rw [if_neg hsame]
      exact .inr rfl
  next hnone =>
    obtain ⟨r, hr, hkey⟩ := h
    exact absurd (decide_eq_true hkey) (List.find?_eq_none.mp hnone r hr)

theorem completedForActor_free {key : String} (h : ∀ r ∈ s.records, r.key ≠ key)
    (fingerprint : String) : completedForActor s key fingerprint = .ok false := by
  unfold completedForActor
  rw [find?_key_eq_none h]

theorem completed_of_served {route key fingerprint : String} {works : Bool}
    (hs : Undisturbed target s₀ s) (h : Served (.completedForActor route key fingerprint)
      (respond app s (.completedForActor route key fingerprint) works).1) :
    (respond app s (.completedForActor route key fingerprint) works).1 =
      completedForActor s₀ key fingerprint := by
  cases works with
  | true =>
    show completedForActor s key fingerprint = _
    rw [completedForActor, completedForActor, hs.records]
  | false => exact absurd rfl h

section Scheduler

variable {draft : Uuid}

theorem schedule_recorded (hrecord : ∃ r ∈ s₀.records, r.key = keyOf app resolved s₀) :
    Serves app target s₀ (schedule (commandAt app resolved s₀ draft))
      (fun r s => (r = .ok .replay ∨ r = .error (.idempotency .reused)) ∧
        Undisturbed target s₀ s) s := by
  refine wp_reads false (fun _ _ => rfl) (fun _ _ _ hserved => hserved) fun s _ => ?_
  refine wp_ensure_bind (fun _ => ?_) (fun hbusy => absurd hbusy nofun)
  refine wp_reads _ (fun _ c => by cases c <;> rfl)
    (fun _ _ hs hserved => completed_of_served hs hserved) fun s hs => ?_
  rcases completedForActor_recorded hrecord (commandAt app resolved s₀ draft).fingerprint with
    hanswer | hanswer
  · refine wp_orElse_bind (fun completed hcompleted => ?_) (fun err herr => ?_)
    · obtain rfl : true = completed := Except.ok.inj (hanswer.symm.trans hcompleted)
      exact ⟨.inl rfl, hs⟩
    · exact absurd (hanswer.symm.trans herr) nofun
  · refine wp_orElse_bind (fun completed hcompleted => ?_) (fun err herr => ?_)
    · exact absurd (hanswer.symm.trans hcompleted) nofun
    · obtain rfl : .reused = err := Except.error.inj (hanswer.symm.trans herr)
      exact ⟨.inr rfl, hs⟩

theorem schedule_free (h : TagMoved app resolved s₀)
    (hfree : ∀ r ∈ s₀.records, r.key ≠ keyOf app resolved s₀)
    (hdraft : app.metadata.draftRevision = some draft) :
    Serves app target s₀ (schedule (commandAt app resolved s₀ draft))
      (fun r s => (∃ id, r = .ok (.scheduled id)) ∧ Scheduled app resolved s₀ s) s := by
  refine wp_reads false (fun _ _ => rfl) (fun _ _ _ hserved => hserved) fun s _ => ?_
  refine wp_ensure_bind (fun _ => ?_) (fun hbusy => absurd hbusy nofun)
  refine wp_reads _ (fun _ c => by cases c <;> rfl)
    (fun _ _ hs hserved => completed_of_served hs hserved) fun s _ => ?_
  have hanswer := completedForActor_free hfree (commandAt app resolved s₀ draft).fingerprint
  refine wp_orElse_bind (fun completed hcompleted => ?_) (fun err herr => ?_)
  · obtain rfl : false = completed := Except.ok.inj (hanswer.symm.trans hcompleted)
    exact scheduleClaim_served h hfree hdraft
  · exact absurd (hanswer.symm.trans herr) nofun

end Scheduler

end Schedule

/-! ## The attempt -/

section Attempt

variable {etag : Option String}

theorem pollSchedule_served (h : TagMoved app resolved s₀) :
    Serves app target s₀ (pollSchedule app.metadata app.generation resolved etag s₀.active
      s₀.pending s₀.actual
        (convergenceSuffix s₀.deployments.head? app.generation
          (targetKey app.metadata.toAppMetadata resolved)))
      (fun _ s => Decided app resolved s₀ s) s := by
  obtain ⟨draft, hdraft⟩ := Option.isSome_iff_exists.mp h.configured
  refine wp_orStop_bind (fun found hfound => ?_)
    (fun hnone => absurd (hdraft.symm.trans hnone) nofun)
  obtain rfl : draft = found := Option.some.inj (hdraft.symm.trans hfound)
  refine wp_part recordSuccess_served (fun _ s _ => ?_) (fun _ _ herr => absurd herr.1 nofun)
  by_cases hrecord : ∃ r ∈ s₀.records, r.key = keyOf app resolved s₀
  · have hdecided : ∀ s, Undisturbed target s₀ s → Decided app resolved s₀ s := by
      intro s hs
      refine ⟨fun _ => hs.deployments, fun hfree => ?_⟩
      obtain ⟨r, hr, hkey⟩ := hrecord
      exact absurd hkey (hfree r hr)
    refine wp_attempt_bind (schedule_recorded hrecord) fun result s hs => ?_
    rcases hs.1 with rfl | rfl
    · exact wp_mono recordSuccess_served fun _ s hs => hdecided s hs.2
    · exact hdecided s hs.2
  · have hfree : ∀ r ∈ s₀.records, r.key ≠ keyOf app resolved s₀ :=
      fun r hr hkey => hrecord ⟨r, hr, hkey⟩
    refine wp_attempt_bind (schedule_free h hfree hdraft) fun result s hs => ?_
    obtain ⟨⟨id, rfl⟩, hscheduled⟩ := hs
    exact ⟨fun hkept => absurd hkept hrecord, fun _ => hscheduled⟩

theorem loadLinked_none_bind (f : Option (Uuid × Release) → Attempt α) :
    (loadLinked none >>= f) = f none := rfl

theorem pollTarget_served (h : TagMoved app resolved s₀) :
    (pollWorld app).wp (LeftAlone app (targetKey app.metadata.toAppMetadata resolved) s₀)
      (fun _ => True)
      (pollTarget app.metadata app.generation s₀.deployments.head? resolved etag
        s₀.active s₀.pending
        s₀.actual) (fun _ s => Decided app resolved s₀ s) s := by
  refine wp_call fun c hc => ⟨trivial, wp_orStop_bind (fun row hrow => ?_) fun hnone => ?_⟩
  · have hrow : row = (play (apply app) s c.1).row := readable_eq_some hrow
    rw [if_neg (hrow ▸ hc.1.unsuppressed), h.unpended]
    -- No pending release: the container decides, and it is of the active release.
    have hunblocked : pollBlocked s₀.active none (s₀.actual.map (·.1)) resolved = none := by
      rw [pollBlocked, if_neg]
      intro hdrift
      exact hdrift.2 h.running
    have hidle : (s₀.deployments.head?.any fun d =>
        polls d.record app.generation (targetKey app.metadata.toAppMetadata resolved) &&
          d.unfinished) = false := by
      cases hhead : s₀.deployments.head? with
      | none => rfl
      | some d =>
        have hd := List.any_eq_false.mp h.idle d (List.mem_of_head? hhead)
        rw [Option.any_some, Bool.eq_false_iff.mpr hd, Bool.and_false]
    rw [loadLinked_none_bind, hunblocked]
    rw [if_neg (Bool.eq_false_iff.mp hidle), ← h.unpended]
    exact pollSchedule_served h
  · have hsome : Option.isSome (α := Option PollState) _ = true := hc.2
    rw [hnone] at hsome
    cases hsome

theorem loadLinked_served (link : Option Uuid) : Serves app target s₀ (loadLinked link)
      (fun r _ => r = .ok (link.map fun id => (id, app.release id))) s := by
  cases link with
  | none => exact rfl
  | some id =>
    exact wp_gets (app.release id) (fun _ _ => rfl) (fun _ _ _ => readable_of_isSome) fun _ _ => rfl

/-- An attempt that finds the tag moved, and is left alone, decides about the new image. -/
theorem pollResolved_served (h : TagMoved app resolved s₀) :
    (pollWorld app).wp (LeftAlone app (targetKey app.metadata.toAppMetadata resolved) s₀)
      (fun _ => True) (pollResolved app.generation s₀.deployments.head? resolved etag)
      (fun _ s => Decided app resolved s₀ s) s := by
  refine wp_gets app.metadata (fun _ _ => rfl) (fun _ _ _ => readable_of_isSome) fun s _ => ?_
  refine wp_gets app.generation (fun _ _ => rfl) (fun _ _ _ => readable_of_isSome) fun s _ => ?_
  have hcurrent : ¬(app.generation ≠ app.generation ∨ app.metadata.autoDeployEnabled = false) := by
    rw [h.automatic]
    simp
  rw [if_neg hcurrent]
  refine wp_gets s₀.active (fun _ _ => rfl)
    (fun _ _ hs hserved => hs.active ▸ readable_of_isSome hserved) fun s _ => ?_
  refine wp_gets s₀.pending (fun _ _ => rfl)
    (fun _ _ hs hserved => hs.pending ▸ readable_of_isSome hserved) fun s _ => ?_
  refine wp_reads (.ok s₀.actual) (fun _ c => by cases c <;> rfl)
    (fun _ _ hs hserved => hs.actual ▸ actualFact_of_served hserved) fun s _ => ?_
  refine wp_part (loadLinked_served s₀.active) (fun loaded s hloaded => ?_)
    (fun _ _ herr => absurd herr nofun)
  cases hloaded
  have htarget : (pollWorld app).wp
      (LeftAlone app (targetKey app.metadata.toAppMetadata resolved) s₀) (fun _ => True)
      (pollTarget app.metadata app.generation s₀.deployments.head? resolved etag
        s₀.active s₀.pending
        s₀.actual) (fun _ s => Decided app resolved s₀ s) s := pollTarget_served h
  cases hactive : s₀.active with
  | none =>
    rw [hactive] at htarget
    exact htarget
  | some id =>
    have hother : (app.release id).manifestDigest ≠ resolved.manifestDigest := by
      intro hsame
      apply h.other
      rw [Tables.activeManifest, hactive, Option.map_some, hsame]
    show (pollWorld app).wp _ _ (if _ then _ else _) _ s
    rw [if_neg hother]
    rw [hactive] at htarget
    exact htarget

end Attempt

/-- An attempt that resolves a moved tag, with nothing in its way and left alone, deploys it
exactly if the key of the target has no record. -/
theorem moved_tag_scheduled_iff (app : App) (resolved : ResolvedImage) (etag : Option String)
    (s : Tables) (o : (pollWorld app).Script) (h : TagMoved app resolved s)
    (halone : (pollWorld app).Meets
      (LeftAlone app (targetKey app.metadata.toAppMetadata resolved) s) o 0
      (pollResolved app.generation s.deployments.head? resolved etag) s) :
    Scheduled app resolved s ((pollWorld app).exec o 0
        (pollResolved app.generation s.deployments.head? resolved etag) s).2 ↔
      ∀ r ∈ s.records, r.key ≠ keyOf app resolved s := by
  have hdecided := wp_exec o 0 (pollResolved_served h) halone
  refine ⟨fun hscheduled r hr hkey => ?_, hdecided.2⟩
  obtain ⟨record, hadded, _⟩ := hscheduled
  have hsame := hdecided.1 ⟨r, hr, hkey⟩
  rw [hadded] at hsame
  exact absurd (congrArg List.length hsame) (by simp)

/-! ## A tag that comes back -/

instance (target : String) (s₀ s : Tables) : Decidable (Undisturbed target s₀ s) :=
  decidable_of_iff (s.deployments = s₀.deployments ∧ s.records = s₀.records ∧
    s.active = s₀.active ∧ s.pending = s₀.pending ∧ s.actual = s₀.actual ∧
    s.row.bind (·.suppressedTargetKey) ≠ some target)
    ⟨fun ⟨h₁, h₂, h₃, h₄, h₅, h₆⟩ => ⟨h₁, h₂, h₃, h₄, h₅, h₆⟩,
      fun h => ⟨h.deployments, h.records, h.active, h.pending, h.actual, h.unsuppressed⟩⟩

/-- Releases 21 and 22 of the followed app are of the two manifests. -/
def tracked : App :=
  { followed with
    release := fun id =>
      { followed.release id with
        manifestDigest := if id = 21 then "sha256:1" else "sha256:2" } }

/-- Everything works and nobody else does anything. -/
def quiet (manifest : String) (id : Uuid) : (pollWorld tracked).Script :=
  fun _ e => ([], finds manifest id e)

def trackedAttempt (manifest : String) (id : Uuid) : Step tracked :=
  .attempt { generation := "generation", webhookSequence := 0 } (quiet manifest id)

/-- The tag is at the first manifest, whose deployment succeeds. -/
def firstDeployed : List (Step tracked) :=
  [trackedAttempt "sha256:1" 11, .deed (.commitActive 21), .deed (.observe (some (21, "c1"))),
   .deed (.transition 11 .succeeded)]

/-- The tag moves on, and the second manifest is deployed too. -/
def secondDeployed : List (Step tracked) :=
  firstDeployed ++
    [trackedAttempt "sha256:2" 12, .deed (.commitActive 22), .deed (.observe (some (22, "c2"))),
     .deed (.transition 12 .succeeded)]

instance decidableServed (e : Call) (a : Answer e) : Decidable (Served e a) := by
  cases e with
  | completedForActor | claimDeployment =>
    cases a with
    | ok _ => exact .isTrue nofun
    | error err => exact decidable_of_iff (err ≠ .database) (by simp [Served])
  | _ =>
    first
    | exact .isTrue trivial
    | exact instDecidableEqBool _ _

instance decidableLeftAlone (target : String) (s₀ s : Tables) (e : Call)
    (c : (pollWorld app).Choice e) : Decidable (LeftAlone app target s₀ s e c) :=
  inferInstanceAs (Decidable (Undisturbed target s₀ _ ∧ Served e _))

/-- The first move of the tag is deployed. -/
theorem moved_tag_scheduled :
    let s := play (step tracked) newApp firstDeployed
    TagMoved tracked (tagged "sha256:2") s ∧
      Scheduled tracked (tagged "sha256:2") s ((pollWorld tracked).exec
        (quiet "sha256:2" 12) 0
        (pollResolved tracked.generation s.deployments.head? (tagged "sha256:2") none) s).2 := by
  intro s
  have hmoved : TagMoved tracked (tagged "sha256:2") s := by
    refine ⟨?_, ?_, ?_, ?_, ?_, ?_, ?_⟩ <;> decide +kernel
  refine ⟨hmoved, ?_⟩
  exact (moved_tag_scheduled_iff tracked (tagged "sha256:2") none s
    (quiet "sha256:2" 12) hmoved (by decide +kernel)).mpr (by decide +kernel)

/-- The tag moves back: nothing stands in the way of the first manifest, and the attempt
does not deploy it. -/
theorem returned_tag_not_scheduled :
    TagMoved tracked (tagged "sha256:1") (play (step tracked) newApp secondDeployed) ∧
      (play (step tracked) newApp
        (secondDeployed ++ [trackedAttempt "sha256:1" 13])).deployments =
        (play (step tracked) newApp secondDeployed).deployments ∧
      (play (step tracked) newApp
        (secondDeployed ++ [trackedAttempt "sha256:1" 13])).row.map (·.lastOutcome) =
        some "busy_skipped" := by
  refine ⟨⟨?_, ?_, ?_, ?_, ?_, ?_, ?_⟩, ?_, ?_⟩ <;> decide +kernel

end SoloDock.Poll
