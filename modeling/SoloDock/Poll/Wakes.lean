import SoloDock.Poll.Rows

/-!
# Wakes and their acknowledgement

A webhook counts up `webhook_sequence` of an app's row. A pass of the coordinator captures the
sequence of a pending wake, an attempt is made for it, and `acknowledge_webhook_if_current` raises
`webhook_processed_sequence` to what was captured once `pollOne` has returned. The calls of the
attempts interleave with each other and with the statements of others on the row, and what they
are answered is arbitrary.

The sequence counts the wakes (`wakes_next`), so a wake `s` was recorded before an attempt started
exactly if `s` is at most the sequence then. What an entry captured is at most the sequence at
each later point of the history (`Counted`).
-/

namespace SoloDock.Poll

open Lib Deploy Registry
open Lib.Prog (resume returned)
open Webhook (PollState newPollState wake)

variable (appId : Uuid)

/-- The statements other than the acknowledgement on the row of an app that is not deleted. -/
def Write.ordinary : Write → Bool
  | .markWebhookProcessed .. | .retainApps _ | .removeAppOperational => false
  | _ => true

/-- The wakes recorded so far. -/
def wakes (row : Option PollState) : Nat := (row.map (·.webhookSequence)).getD 0

/-- The wakes acknowledged so far. -/
def processed (row : Option PollState) : Nat := (row.map (·.webhookProcessedSequence)).getD 0

/-! ## The coordinator -/

/-- An attempt that has started: its entry, and the answers to the calls it has made so far. -/
structure Trial where
  due : DueEntry
  answered : List ((e : Call) → Answer e)

/-- What is left of the attempt. -/
def Trial.rest (trial : Trial) : Attempt Unit := resume trial.answered (pollOne trial.due)

/-- The row, the metadata and the memory of the coordinator: the entries of its passes, the
attempts, and what a pass captured because auto-deploy was disabled. -/
structure Waking where
  row : Option PollState
  generation : String
  enabled : Bool
  due : List DueEntry
  trials : List Trial
  disabled : Option (String × Nat)

/-- What may happen next. `configure` is every change of the metadata or the credential, and
`answer` the next call of an attempt. -/
inductive Event where
  | write (write : Write)
  | configure (generation : String) (enabled : Bool)
  | pass
  | markDisabled (now : String)
  | start (index : Nat)
  | answer (index : Nat) (answers : (e : Call) → Answer e)
  | acknowledge (index : Nat) (now : String)
  | restart

/-- The event is a webhook that is accepted and not ignored. -/
def Event.accepts : Event → Bool
  | .write (.acceptWebhook _ enabled _) => enabled
  | _ => false

/-- The sequence of the pending wake of the generation, or 0. -/
def capturedSequence (generation : String) (row : Option PollState) : Nat :=
  match row with
  | some value =>
    if value.generation = generation ∧ value.webhookSequence > value.webhookProcessedSequence then
      value.webhookSequence
    else 0
  | none => 0

/-- `acknowledge_webhook_if_current`, after an attempt that has returned. -/
def acknowledge (s : Waking) (trial : Trial) (now : String) : Option PollState :=
  if trial.rest.returned = true ∧ trial.due.webhookSequence > 0 ∧ s.enabled = true
      ∧ s.generation = trial.due.generation then
    s.row.map (markWebhookProcessed trial.due.generation trial.due.webhookSequence now)
  else s.row

def Waking.next (s : Waking) : Event → Waking
  | .write write => if write.ordinary then { s with row := write.perform appId s.row } else s
  | .configure generation enabled => { s with generation, enabled }
  | .pass =>
    if s.enabled then
      { s with due := ⟨s.generation, capturedSequence s.generation s.row⟩ :: s.due }
    else if wakes s.row > processed s.row then
      { s with disabled := some (s.generation, wakes s.row) }
    else s
  | .markDisabled now =>
    match s.disabled with
    | some (generation, captured) =>
      { s with row := s.row.map (markWebhookProcessed generation captured now), disabled := none }
    | none => s
  | .start index =>
    match s.due[index]? with
    | some entry =>
      { s with
        due := s.due.eraseIdx index
        trials := ⟨entry, []⟩ :: s.trials }
    | none => s
  | .answer index answers =>
    { s with trials := s.trials.modify index fun trial =>
        { trial with answered := trial.answered ++ [answers] } }
  | .acknowledge index now =>
    match s.trials[index]? with
    | some trial => { s with row := acknowledge s trial now }
    | none => s
  | .restart => { s with due := [], trials := [], disabled := none }

/-- The state after a history, the latest event first. -/
def wakingAfter (generation : String) (enabled : Bool) : List Event → Waking
  | [] => ⟨none, generation, enabled, [], [], none⟩
  | event :: earlier => (wakingAfter generation enabled earlier).next appId event

/-! ## The sequence counts the wakes -/

section Wakes

variable {appId} {row : Option PollState} {s : Waking}

/-- An ordinary statement processes nothing, and only a webhook that is accepted counts. -/
theorem ordinary_wakes {write : Write} (h : write.ordinary = true) :
    processed (write.perform appId row) = processed row ∧
      wakes (write.perform appId row) =
        wakes row + if (Event.write write).accepts then 1 else 0 := by
  cases write with
  | publish value now =>
    unfold Write.perform
    dsimp only
    cases hpublish : publish value now row with
    | none => exact ⟨rfl, rfl⟩
    | some row' =>
      obtain ⟨next, checked, text, ⟨rfl, rfl⟩ | ⟨old, rfl, rfl⟩⟩ := publish_cases hpublish
      · exact ⟨rfl, rfl⟩
      · exact ⟨rfl, rfl⟩
  | tryInitializeGeneration observed generation due now =>
    unfold Write.perform Poll.tryInitializeGeneration
    dsimp only
    split
    · split
      · cases row <;> exact ⟨rfl, rfl⟩
      · exact ⟨rfl, rfl⟩
    · exact ⟨rfl, rfl⟩
  | acceptWebhook generation enabled now =>
    cases enabled with
    | false => exact ⟨rfl, rfl⟩
    | true =>
      cases row with
      | none => exact ⟨rfl, rfl⟩
      | some value =>
        refine ⟨?_, rfl⟩
        show (wake generation now (some value)).webhookProcessedSequence = _
        unfold wake
        dsimp only
        split <;> rfl
  | transition record status now =>
    unfold Write.perform
    dsimp only
    split
    · unfold rowAfter
      split
      next target htarget =>
        split
        · cases row with
          | none => exact ⟨rfl, rfl⟩
          | some value =>
            unfold suppressTarget
            dsimp only [Option.map_some]
            split <;> exact ⟨rfl, rfl⟩
        · exact ⟨rfl, rfl⟩
      · exact ⟨rfl, rfl⟩
    · exact ⟨rfl, rfl⟩
  | clearSuppressionIfTarget targetKey now =>
    cases row with
    | none => exact ⟨rfl, rfl⟩
    | some value =>
      unfold Write.perform Poll.clearSuppressionIfTarget
      dsimp only [Option.map_some]
      split <;> exact ⟨rfl, rfl⟩
  | markWebhookProcessed | retainApps | removeAppOperational => cases h

theorem wakes_mark (row : Option PollState) (generation : String) (captured : Nat) (now : String) :
    wakes (row.map (markWebhookProcessed generation captured now)) = wakes row := by
  cases row with
  | none => rfl
  | some value =>
    unfold wakes markWebhookProcessed
    dsimp only [Option.map_some]
    split <;> rfl

theorem processed_mark (row : Option PollState) (generation : String) (captured : Nat)
    (now : String) :
    processed (row.map (markWebhookProcessed generation captured now)) = processed row ∨
      processed (row.map (markWebhookProcessed generation captured now)) =
        min (wakes row) (max (processed row) captured) := by
  cases row with
  | none => exact .inl rfl
  | some value =>
    unfold processed markWebhookProcessed
    dsimp only [Option.map_some]
    split
    · exact .inr rfl
    · exact .inl rfl

theorem capturedSequence_le (generation : String) :
    capturedSequence generation row ≤ wakes row := by
  unfold capturedSequence
  split
  next value =>
    split
    · exact Nat.le_refl _
    · exact Nat.zero_le _
  · exact Nat.zero_le _

/-- What an event does to the row: an ordinary statement, a mark after an attempt of the current
generation that has returned, a mark of what was captured while disabled, or nothing. -/
inductive Moves (appId : Uuid) (s : Waking) : Event → Option PollState → Prop where
  | ordinary {write : Write} (h : write.ordinary = true) :
      Moves appId s (.write write) (write.perform appId s.row)
  | acknowledge {index : Nat} {now : String} {trial : Trial} (found : s.trials[index]? = some trial)
      (returned : trial.rest.returned = true) (enabled : s.enabled = true)
      (current : s.generation = trial.due.generation) :
      Moves appId s (.acknowledge index now)
        (s.row.map (markWebhookProcessed trial.due.generation trial.due.webhookSequence now))
  | disabled {now : String} {entry : String × Nat} (captured : s.disabled = some entry) :
      Moves appId s (.markDisabled now) (s.row.map (markWebhookProcessed entry.1 entry.2 now))
  | still {event : Event} (h : event.accepts = false ∨ ∃ write, event = .write write ∧
      write.ordinary = false) : Moves appId s event s.row

/-- What an event can do to the row. -/
theorem next_moves (appId : Uuid) (s : Waking) (event : Event) :
    Moves appId s event (s.next appId event).row := by
  cases event with
  | write write =>
    unfold Waking.next
    dsimp only
    split
    next h => exact .ordinary h
    next h => exact .still (.inr ⟨write, rfl, Bool.not_eq_true _ ▸ h⟩)
  | acknowledge index now =>
    unfold Waking.next
    dsimp only
    split
    next trial htrial =>
      unfold Poll.acknowledge
      split
      next h => exact .acknowledge htrial h.1 h.2.2.1 h.2.2.2
      · exact .still (.inl rfl)
    · exact .still (.inl rfl)
  | markDisabled now =>
    unfold Waking.next
    dsimp only
    split
    next generation captured hdisabled => exact .disabled hdisabled
    · exact .still (.inl rfl)
  | pass =>
    unfold Waking.next
    dsimp only
    split
    · exact .still (.inl rfl)
    · split <;> exact .still (.inl rfl)
  | start index =>
    unfold Waking.next
    dsimp only
    split <;> exact .still (.inl rfl)
  | configure | answer | restart => exact .still (.inl rfl)

/-- The sequence is raised by one by a webhook that is accepted, and by nothing else changed. -/
theorem wakes_next (appId : Uuid) (s : Waking) (event : Event) :
    wakes (s.next appId event).row = wakes s.row + if event.accepts then 1 else 0 := by
  generalize hrow : (s.next appId event).row = row
  cases (hrow ▸ next_moves appId s event : Moves appId s event row) with
  | ordinary h => exact (ordinary_wakes h).2
  | acknowledge | disabled => exact wakes_mark ..
  | still h =>
    rcases h with h | ⟨write, rfl, h⟩
    · rw [h]
      rfl
    · cases write with
      | markWebhookProcessed | retainApps | removeAppOperational => rfl
      | _ => cases h

/-! ## What is captured was recorded -/

variable {generation : String} {enabled : Bool} {events : List Event}

/-- The trial was started from its entry when that many wakes had been recorded. -/
def Started (appId : Uuid) (generation : String) (enabled : Bool) (events : List Event)
    (entry : DueEntry) : Prop :=
  ∃ later index earlier, events = later ++ .start index :: earlier ∧
    (wakingAfter appId generation enabled earlier).due[index]? = some entry ∧
    entry.webhookSequence ≤ wakes (wakingAfter appId generation enabled earlier).row

/-- A pass captured the wakes while auto-deploy was disabled. -/
def CapturedDisabled (appId : Uuid) (generation : String) (enabled : Bool) (events : List Event)
    (captured : Nat) : Prop :=
  ∃ later earlier, events = later ++ .pass :: earlier ∧
    (wakingAfter appId generation enabled earlier).enabled = false ∧
    captured = wakes (wakingAfter appId generation enabled earlier).row

theorem Started.cons {entry : DueEntry} (h : Started appId generation enabled events entry)
    (event : Event) : Started appId generation enabled (event :: events) entry := by
  obtain ⟨later, index, earlier, rfl, h⟩ := h
  exact ⟨event :: later, index, earlier, rfl, h⟩

theorem CapturedDisabled.cons {captured : Nat}
    (h : CapturedDisabled appId generation enabled events captured) (event : Event) :
    CapturedDisabled appId generation enabled (event :: events) captured := by
  obtain ⟨later, earlier, rfl, h⟩ := h
  exact ⟨event :: later, earlier, rfl, h⟩

/-- No more is acknowledged than was recorded, no entry captured more than was recorded when its
attempt started, and the disabled capture is one. -/
structure Counted (appId : Uuid) (generation : String) (enabled : Bool) (events : List Event)
    (s : Waking) : Prop where
  processed : processed s.row ≤ wakes s.row
  due : ∀ entry ∈ s.due, entry.webhookSequence ≤ wakes s.row
  trials : ∀ trial ∈ s.trials, Started appId generation enabled events trial.due
  disabled : ∀ entry, s.disabled = some entry →
    CapturedDisabled appId generation enabled events entry.2

/-- An acknowledgement goes no further than what it captured. -/
theorem processed_mark_le {generation : String} {captured : Nat} (now : String)
    (h : processed row < processed (row.map (markWebhookProcessed generation captured now))) :
    processed (row.map (markWebhookProcessed generation captured now)) ≤ captured := by
  rcases processed_mark row generation captured now with heq | heq <;> omega

theorem processed_mark_le_wakes (h : processed row ≤ wakes row) (generation : String)
    (captured : Nat) (now : String) :
    processed (row.map (markWebhookProcessed generation captured now)) ≤
      wakes (row.map (markWebhookProcessed generation captured now)) := by
  rw [wakes_mark]
  rcases processed_mark row generation captured now with heq | heq <;> omega

/-- No event acknowledges more than was recorded. -/
theorem processed_next (h : processed s.row ≤ wakes s.row) (event : Event) :
    processed (s.next appId event).row ≤ wakes (s.next appId event).row := by
  have hwakes := wakes_next appId s event
  generalize hrow : (s.next appId event).row = row at hwakes ⊢
  cases (hrow ▸ next_moves appId s event : Moves appId s event row) with
  | ordinary hordinary =>
    rw [(ordinary_wakes hordinary).1]
    omega
  | acknowledge | disabled => exact processed_mark_le_wakes h ..
  | still => exact h

/-- The entries after an event are those before it, and what a pass has captured. -/
theorem mem_due_next {event : Event} {entry : DueEntry} (h : entry ∈ (s.next appId event).due) :
    entry ∈ s.due ∨ entry.webhookSequence ≤ wakes s.row := by
  unfold Waking.next at h
  cases event with
  | write => dsimp only at h; split at h <;> exact .inl h
  | configure | answer => exact .inl h
  | pass =>
    dsimp only at h
    split at h
    · rcases List.mem_cons.mp h with rfl | h
      · exact .inr (capturedSequence_le s.generation)
      · exact .inl h
    · split at h <;> exact .inl h
  | start =>
    dsimp only at h
    split at h
    · exact .inl (List.mem_of_mem_eraseIdx h)
    · exact .inl h
  | markDisabled | acknowledge => dsimp only at h; split at h <;> exact .inl h
  | restart => cases h

/-- An attempt after an event was one before it, or has just started. -/
theorem mem_trials_next {event : Event} {trial : Trial}
    (h : trial ∈ (s.next appId event).trials) : (∃ before ∈ s.trials, before.due = trial.due) ∨
      ∃ index, event = .start index ∧ s.due[index]? = some trial.due := by
  unfold Waking.next at h
  cases event with
  | write => dsimp only at h; split at h <;> exact .inl ⟨trial, h, rfl⟩
  | configure => exact .inl ⟨trial, h, rfl⟩
  | pass =>
    dsimp only at h
    split at h
    · exact .inl ⟨trial, h, rfl⟩
    · split at h <;> exact .inl ⟨trial, h, rfl⟩
  | start index =>
    dsimp only at h
    split at h
    next entry hentry =>
      rcases List.mem_cons.mp h with rfl | h
      · exact .inr ⟨index, rfl, hentry⟩
      · exact .inl ⟨trial, h, rfl⟩
    · exact .inl ⟨trial, h, rfl⟩
  | answer index answers =>
    obtain ⟨i, hi, rfl⟩ := List.mem_iff_getElem.mp h
    rw [List.length_modify] at hi
    refine .inl ⟨_, List.getElem_mem hi, ?_⟩
    rw [List.getElem_modify]
    split <;> rfl
  | markDisabled | acknowledge => dsimp only at h; split at h <;> exact .inl ⟨trial, h, rfl⟩
  | restart => cases h

/-- What is captured after an event was captured before, or by a pass while disabled. -/
theorem disabled_next {event : Event} {entry : String × Nat}
    (h : (s.next appId event).disabled = some entry) : s.disabled = some entry ∨
      event = .pass ∧ s.enabled = false ∧ entry.2 = wakes s.row := by
  unfold Waking.next at h
  cases event with
  | write => dsimp only at h; split at h <;> exact .inl h
  | configure | answer => exact .inl h
  | pass =>
    dsimp only at h
    split at h
    · exact .inl h
    next hdisabled =>
      split at h
      · cases h
        exact .inr ⟨rfl, Bool.not_eq_true _ ▸ hdisabled, rfl⟩
      · exact .inl h
  | start | acknowledge => dsimp only at h; split at h <;> exact .inl h
  | markDisabled =>
    dsimp only at h
    split at h
    · cases h
    · exact .inl h
  | restart => cases h

/-- After every history the counters count the wakes. -/
theorem counted_after (appId : Uuid) (generation : String) (enabled : Bool) (events : List Event) :
    Counted appId generation enabled events (wakingAfter appId generation enabled events) := by
  induction events with
  | nil => exact ⟨Nat.le_refl _, nofun, nofun, nofun⟩
  | cons event earlier ih =>
    refine ⟨processed_next ih.processed event, fun entry hentry => ?_, fun trial htrial => ?_,
      fun entry hentry => ?_⟩
    · have hwakes := wakes_next appId (wakingAfter appId generation enabled earlier) event
      have hle : entry.webhookSequence ≤ wakes (wakingAfter appId generation enabled earlier).row :=
        (mem_due_next hentry).elim (ih.due entry) id
      exact Nat.le_trans hle (Nat.le.intro hwakes.symm)
    · rcases mem_trials_next htrial with ⟨before, hbefore, hdue⟩ | ⟨index, rfl, hentry⟩
      · exact hdue ▸ (ih.trials before hbefore).cons event
      · exact ⟨[], index, earlier, rfl, hentry, ih.due _ (List.mem_of_getElem? hentry)⟩
    · rcases disabled_next hentry with hbefore | ⟨rfl, hdisabled, hcaptured⟩
      · exact (ih.disabled entry hbefore).cons event
      · exact ⟨[], earlier, rfl, hdisabled, hcaptured⟩

end Wakes

/-- In every history no more is acknowledged than was recorded. The next event counts one wake if
it is a webhook that is accepted, and none otherwise; and it acknowledges a wake only if it follows
an attempt that started after the wake was recorded and whose `pollOne` has returned, under the
generation that is current, or if a pass had found auto-deploy disabled after the wake. -/
theorem wakes_acknowledged (appId : Uuid) (generation : String) (enabled : Bool)
    (events : List Event) :
    let after := wakingAfter appId generation enabled
    let s := after events
    processed s.row ≤ wakes s.row ∧ ∀ event,
      let acknowledged := processed (s.next appId event).row
      wakes (s.next appId event).row = wakes s.row + (if event.accepts then 1 else 0) ∧
      (processed s.row < acknowledged →
        (∃ index now trial, event = .acknowledge index now ∧ s.trials[index]? = some trial ∧
          resume trial.answered (pollOne trial.due) = .done () ∧
          s.enabled = true ∧ s.generation = trial.due.generation ∧
          ∃ later i earlier, events = later ++ .start i :: earlier ∧
            (after earlier).due[i]? = some trial.due ∧ acknowledged ≤ wakes (after earlier).row) ∨
        ∃ now later earlier, event = .markDisabled now ∧ events = later ++ .pass :: earlier ∧
          (after earlier).enabled = false ∧ acknowledged ≤ wakes (after earlier).row) := by
  intro after s
  have hcounted : Counted appId generation enabled events s := counted_after ..
  refine ⟨hcounted.processed, fun event => ⟨wakes_next appId s event, fun hmore => ?_⟩⟩
  have hmoves := next_moves appId s event
  generalize (s.next appId event).row = row at hmoves hmore ⊢
  cases hmoves with
  | ordinary hordinary =>
    rw [(ordinary_wakes hordinary).1] at hmore
    exact absurd hmore (Nat.lt_irrefl _)
  | @acknowledge index now trial hfound hreturned henabled hcurrent =>
    obtain ⟨⟨⟩, hdone⟩ := Prog.returned_iff.mp hreturned
    obtain ⟨later, i, earlier, hevents, hentry, hseen⟩ :=
      hcounted.trials trial (List.mem_of_getElem? hfound)
    exact .inl ⟨index, now, trial, rfl, hfound, hdone, henabled, hcurrent, later, i, earlier,
      hevents, hentry, Nat.le_trans (processed_mark_le now hmore) hseen⟩
  | @disabled now entry hcaptured =>
    obtain ⟨later, earlier, hevents, hdisabled, hwakes⟩ := hcounted.disabled entry hcaptured
    exact .inr ⟨now, later, earlier, rfl, hevents, hdisabled,
      hwakes ▸ processed_mark_le now hmore⟩
  | still => exact absurd hmore (Nat.lt_irrefl _)

/-! ## A push is polled for -/

/-- An app that follows `ghcr.io/team/web:1`. -/
def followedApp : PollMetadata where
  id := 1
  slug := "web"
  discoveryImageRef := some "ghcr.io/team/web:1"
  credentialRef := none
  draftRevision := some 2
  draftConfigSha256 := none
  autoDeployEnabled := true
  pollIntervalSeconds := 300

/-- The image that was pushed. -/
def pushedImage : ResolvedImage where
  sourceImageRef := "ghcr.io/team/web:1"
  logicalRegistry := "ghcr.io"
  repository := "team/web"
  sourceTag := "1"
  sourceDescriptorDigest := "sha256:d"
  indexDigest := none
  manifestDigest := "sha256:m"
  runnableImageRef := "ghcr.io/team/web@sha256:m"
  platform := ⟨"linux", "amd64", none⟩
  localImageId := "sha256:i"

/-- What an attempt is answered that schedules the first deployment. -/
def pushAnswers : (e : Call) → Answer e
  | .readMetadata => some followedApp
  | .pollGeneration _ => some "g"
  | .latestDeployment => some none
  | .loadCredential _ | .resolve .. | .loadRelease _ => none
  | .probe => some ⟨some "linux", some "amd64", none⟩
  | .pollState | .readLink _ => some none
  | .resolvePoll .. => some (.ok (.modified pushedImage none))
  | .actualFact _ => .ok none
  | .clearSuppression _ => ()
  | .now => (0 : Int)
  | .intervalWithJitter .. => (300 : Nat)
  | .publish _ => some ()
  | .cancelled => false
  | .completedForActor .. => .ok false
  | .tryApp | .tryComposeOwned => true
  | .loadConfig _ => some false
  | .claimDeployment .. => .ok (.scheduled 3)

/-- A webhook, the pass that captures it, and its attempt to the end; the latest first. -/
def pushed : List Event :=
  List.replicate 30 (.answer 0 pushAnswers) ++
    [.start 0, .pass, .write (.acceptWebhook "g" true "t")]

/-- The wake is acknowledged after the attempt, which has scheduled the deployment. -/
theorem pushed_wake_acknowledged :
    let s := wakingAfter 1 "g" true pushed
    wakes s.row = 1 ∧ processed s.row = 0 ∧
      processed (s.next 1 (.acknowledge 0 "t")).row = 1 ∧
      ∃ trial, s.trials[0]? = some trial ∧ trial.due = ⟨"g", 1⟩ ∧
        resume trial.answered (pollOne trial.due) = .done () := by
  have hbefore : processed (wakingAfter 1 "g" true pushed).row = 0 := by decide +kernel
  have hafter :
    processed ((wakingAfter 1 "g" true pushed).next 1 (.acknowledge 0 "t")).row = 1 := by
    decide +kernel
  refine ⟨by decide +kernel, hbefore, hafter, ?_⟩
  rcases ((wakes_acknowledged 1 "g" true pushed).2 (.acknowledge 0 "t")).2 (by omega) with
    ⟨index, now, trial, heq, htrial, hdone, -⟩ | ⟨now, later, earlier, heq, -⟩
  · cases heq
    refine ⟨trial, htrial, ?_, hdone⟩
    have hdue : (wakingAfter 1 "g" true pushed).trials[0]?.map (·.due) = some ⟨"g", 1⟩ := rfl
    rw [htrial] at hdue
    exact Option.some.inj hdue
  · cases heq

end SoloDock.Poll
