import SoloDock.Poll.Tables

/-!
# Generations of a poll row

The row of one app in `poll_states` under every statement that writes it, in any order: attempts
publish, the coordinator initializes a generation, webhooks wake, deployments that end suppress
their target, the row is removed. An attempt of an old generation may publish late, and then the
row is of the old generation again; but what a row holds was always recorded under its own
generation (`items_of_generation`): a statement that changes the generation keeps no such column
(`perform_item`).
-/

namespace SoloDock.Poll

open Lib Registry Deploy
open Webhook (PollState newPollState wake)

/-! ## The statements -/

/-- A statement on the row of the app; one that fails is not made. -/
inductive Write where
  | publish (value : PollObservation) (now : Instant)
  | tryInitializeGeneration (observed : Option String) (generation : String) (due now : Instant)
  | acceptWebhook (generation : String) (enabled : Bool) (now : String)
  | transition (record : Record) (status : Status) (now : String)
  | clearSuppressionIfTarget (targetKey now : String)
  | markWebhookProcessed (generation : String) (captured : Nat) (now : String)
  | retainApps (ids : List Uuid)
  | removeAppOperational

variable (appId : Uuid)

/-- `try_initialize_generation`: only the row the coordinator saw is replaced. -/
def tryInitializeGeneration (observed : Option String) (generation : String) (due now : Instant)
    (row : Option PollState) : Option PollState :=
  match rfc3339 due, rfc3339 now with
  | some due, some now =>
    if row.map (·.generation) = observed then some (initializeGeneration generation due now row)
    else row
  | _, _ => row

def Write.perform (row : Option PollState) : Write → Option PollState
  | .publish value now => (Poll.publish value now row).or row
  | .tryInitializeGeneration observed generation due now =>
    Poll.tryInitializeGeneration observed generation due now row
  | .acceptWebhook generation enabled now => if enabled then some (wake generation now row) else row
  | .transition record status now =>
    if record.appId = appId then rowAfter record status now row else row
  | .clearSuppressionIfTarget targetKey now =>
    row.map (Poll.clearSuppressionIfTarget targetKey now)
  | .markWebhookProcessed generation captured now =>
    row.map (Poll.markWebhookProcessed generation captured now)
  | .retainApps ids => if appId ∈ ids then row else none
  | .removeAppOperational => none

/-- The row after a history, the latest statement first. -/
def rowOf : List Write → Option PollState
  | [] => none
  | write :: earlier => write.perform appId (rowOf earlier)

/-! ## What a row holds -/

/-- A value of a column that must not outlive its generation. -/
inductive Item where
  | sourceDescriptorDigest (digest : String)
  | etag (etag : String)
  | manifestDigest (digest : String)
  | platform (platform : String)
  | suppressedTargetKey (targetKey : String)
  | suppressedDeploymentId (id : Uuid)

namespace Item

/-- The row holds the value. -/
def In (row : PollState) : Item → Prop
  | .sourceDescriptorDigest x => row.lastSourceDescriptorDigest = some x
  | .etag x => row.lastEtag = some x
  | .manifestDigest x => row.lastManifestDigest = some x
  | .platform x => row.lastPlatform = some x
  | .suppressedTargetKey x => row.suppressedTargetKey = some x
  | .suppressedDeploymentId x => row.suppressedDeploymentId = some x

/-- An attempt observed the value. -/
def Observed (value : PollObservation) : Item → Prop
  | .sourceDescriptorDigest x => value.sourceDescriptorDigest = some x
  | .etag x => value.etag = some x
  | .manifestDigest x => value.manifestDigest = some x
  | .platform x => value.platform = some x
  | _ => False

/-- The end of the deployment suppresses the value. -/
def Suppressed (record : Record) : Item → Prop
  | .suppressedTargetKey x => record.scheduledTargetKey = some x
  | .suppressedDeploymentId x => record.id = x
  | _ => False

/-- The statement records the value, for an attempt or a deployment of the generation. -/
def RecordedBy (generation : String) (item : Item) : Write → Prop
  | .publish value _ => value.generation = generation ∧ item.Observed value
  | .transition record _ _ => record.appId = appId ∧ record.trigger = .poll ∧
      record.pollGeneration = some generation ∧ item.Suppressed record
  | _ => False

end Item

section Items

variable {appId} {item : Item} {row row' : PollState} {before : Option PollState}

/-- The row held the value before, under the same generation. -/
def HeldBefore (item : Item) (before : Option PollState) (row' : PollState) : Prop :=
  ∃ row, before = some row ∧ row.generation = row'.generation ∧ item.In row

theorem publish_item {value : PollObservation} {now : Instant}
    (h : publish value now before = some row') (hitem : item.In row') :
    row'.generation = value.generation ∧ (item.Observed value ∨ HeldBefore item before row') := by
  obtain ⟨next, checked, text, ⟨rfl, rfl⟩ | ⟨row, rfl, rfl⟩⟩ := publish_cases h
  · cases item with
    | suppressedTargetKey | suppressedDeploymentId => cases hitem
    | _ => exact ⟨rfl, .inl hitem⟩
  · -- a column is replaced, or kept under the same generation
    have hobserved : ∀ {new old : Option String} {x : String},
        (if row.generation ≠ value.generation ∨ value.replaceObservedFields = true then new
          else new.or old) = some x →
        new = some x ∨ (row.generation = value.generation ∧ old = some x) := by
      intro new old x hx
      split at hx
      · exact .inl hx
      next hsame =>
        rcases Option.or_eq_some_iff.mp hx with hnew | hold
        · exact .inl hnew
        · exact .inr ⟨Decidable.of_not_not fun hne => hsame (.inl hne), hold.2⟩
    have hsuppressed : ∀ {β : Type} {old : Option β} {x : β},
        (if row.generation ≠ value.generation then none else old) = some x →
        row.generation = value.generation ∧ old = some x := by
      intro β old x hx
      split at hx
      · cases hx
      next hsame => exact ⟨Decidable.of_not_not hsame, hx⟩
    refine ⟨rfl, ?_⟩
    cases item with
    | suppressedTargetKey | suppressedDeploymentId =>
      exact .inr ⟨row, rfl, hsuppressed hitem⟩
    | _ => exact (hobserved hitem).imp id fun hold => ⟨row, rfl, hold⟩

theorem wake_item {generation now : String} (hitem : item.In (wake generation now before)) :
    HeldBefore item before (wake generation now before) := by
  cases before with
  | none => cases item <;> cases hitem
  | some row =>
    by_cases hsame : row.generation = generation
    · have hkept : item.In row := by
        unfold wake at hitem
        dsimp only at hitem
        rw [if_pos hsame] at hitem
        cases item <;> exact hitem
      exact ⟨row, rfl, hsame, hkept⟩
    · unfold wake at hitem
      dsimp only at hitem
      rw [if_neg hsame] at hitem
      cases item <;> cases hitem

theorem initializeGeneration_item {generation due now : String} :
    ¬item.In (initializeGeneration generation due now before) := by
  intro hitem
  cases before <;> cases item <;> cases hitem

theorem rowAfter_item {record : Record} {status : Status} {now : String}
    (h : rowAfter record status now before = some row') (hitem : item.In row') :
    HeldBefore item before row' ∨ (record.trigger = .poll ∧
      record.pollGeneration = some row'.generation ∧ item.Suppressed record) := by
  have hsame : before = some row' → HeldBefore item before row' :=
    fun heq => ⟨row', heq, rfl, hitem⟩
  unfold rowAfter at h
  split at h
  next target htarget =>
    split at h
    next hpoll =>
      obtain ⟨row, rfl, rfl⟩ := Option.map_eq_some_iff.mp h
      unfold suppressTarget at hitem ⊢
      split at hitem
      next hgeneration =>
        rw [if_pos hgeneration]
        cases item with
        | suppressedTargetKey x =>
          exact .inr ⟨hpoll.1, hgeneration.symm, htarget.trans hitem⟩
        | suppressedDeploymentId x =>
          exact .inr ⟨hpoll.1, hgeneration.symm, Option.some.inj hitem⟩
        | _ => exact .inl ⟨row, rfl, rfl, hitem⟩
      next hgeneration =>
        rw [if_neg hgeneration]
        exact .inl ⟨row, rfl, rfl, hitem⟩
    · exact .inl (hsame h)
  · exact .inl (hsame h)

/-- An item of a row was recorded by the statement, or was there before. -/
theorem perform_item {write : Write} (h : write.perform appId before = some row')
    (hitem : item.In row') :
    item.RecordedBy appId row'.generation write ∨ HeldBefore item before row' := by
  have hsame : before = some row' → HeldBefore item before row' :=
    fun heq => ⟨row', heq, rfl, hitem⟩
  cases write with
  | publish value now =>
    have hor : (publish value now before).or before = some row' := h
    rcases Option.or_eq_some_iff.mp hor with hpublish | hfailed
    · obtain ⟨hgeneration, hcases⟩ := publish_item hpublish hitem
      exact hcases.imp (fun hobserved => ⟨hgeneration.symm, hobserved⟩) id
    · exact .inr (hsame hfailed.2)
  | tryInitializeGeneration observed generation due now =>
    unfold Write.perform Poll.tryInitializeGeneration at h
    dsimp only at h
    split at h
    · split at h
      · cases h
        exact absurd hitem initializeGeneration_item
      · exact .inr (hsame h)
    · exact .inr (hsame h)
  | acceptWebhook generation enabled now =>
    cases enabled with
    | true =>
      cases h
      exact .inr (wake_item hitem)
    | false => exact .inr (hsame h)
  | transition record status now =>
    unfold Write.perform at h
    dsimp only at h
    split at h
    next happ =>
      rcases rowAfter_item h hitem with hheld | hended
      · exact .inr hheld
      · exact .inl ⟨happ, hended⟩
    · exact .inr (hsame h)
  | clearSuppressionIfTarget targetKey now =>
    obtain ⟨row, rfl, rfl⟩ := Option.map_eq_some_iff.mp h
    refine .inr ⟨row, rfl, ?_⟩
    unfold Poll.clearSuppressionIfTarget at hitem ⊢
    split at hitem
    next htarget =>
      rw [if_pos htarget]
      cases item with
      | suppressedTargetKey | suppressedDeploymentId => cases hitem
      | _ => exact ⟨rfl, hitem⟩
    next htarget =>
      rw [if_neg htarget]
      exact ⟨rfl, hitem⟩
  | markWebhookProcessed generation captured now =>
    obtain ⟨row, rfl, rfl⟩ := Option.map_eq_some_iff.mp h
    refine .inr ⟨row, rfl, ?_⟩
    unfold Poll.markWebhookProcessed at hitem ⊢
    split at hitem
    next hgeneration =>
      rw [if_pos hgeneration]
      exact ⟨rfl, by cases item <;> exact hitem⟩
    next hgeneration =>
      rw [if_neg hgeneration]
      exact ⟨rfl, hitem⟩
  | retainApps ids =>
    unfold Write.perform at h
    dsimp only at h
    split at h
    · exact .inr (hsame h)
    · cases h
  | removeAppOperational => cases h

end Items

/-- In every history, what the row of an app holds was recorded by an attempt or a deployment of
the generation of the row. -/
theorem items_of_generation (history : List Write) (row : PollState)
    (h : rowOf appId history = some row) (item : Item) (hitem : item.In row) :
    ∃ write ∈ history, item.RecordedBy appId row.generation write := by
  induction history generalizing row with
  | nil => cases h
  | cons write earlier ih =>
    rcases perform_item h hitem with hrecorded | ⟨old, hold, hgeneration, hheld⟩
    · exact ⟨write, .head _, hrecorded⟩
    · obtain ⟨other, hmem, hrecorded⟩ := ih old hold hheld
      exact ⟨other, .tail _ hmem, hgeneration ▸ hrecorded⟩

/-- A wake of generation `b` after an attempt of generation `a` that comes again after it. -/
theorem late_etag_recorded :
    let late : Write := .publish { disabledObservation "a" with etag := some "e" } 0
    ∃ row, rowOf 1 [late, .acceptWebhook "b" true "", late] = some row ∧ row.generation = "a" ∧
      ∃ write ∈ [late, .acceptWebhook "b" true "", late],
        (Item.etag "e").RecordedBy 1 row.generation write :=
  ⟨_, rfl, rfl, items_of_generation 1 _ _ rfl (.etag "e") rfl⟩

end SoloDock.Poll
