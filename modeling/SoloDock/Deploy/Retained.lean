import SoloDock.Deploy.Concluded

/-!
# An expected pending release is retained

A run that resumes a pending release, or replaces it by a rollback, lets go of the pending
link only when the release is active or the app's containers were seen and none is of that
release; a rollback that was verified is such a case, its last look shows the old release
alone. Two steps need more than the run knows: a rollback redirects the link before it
touches a container, and a refused document lets go of the link when the app still has the
containers the run expected. Both are sound unless the expected container is the pending
release's own.
-/

namespace SoloDock.Deploy

open Lib Lib.Prog Registry Docker

/-- The app's containers were listed since the last Compose action, and none is of the
release. -/
def Gone (release : Uuid) (log : Log) : Prop :=
  ∃ cs, listed log = some cs ∧ ∀ c ∈ cs, c.releaseId ≠ some release

/-- The step from `s` to `s'` may let go of the pending release: it is active, or has no
container. -/
def MayRelease (release : Uuid) (s s' : State) : Prop :=
  s'.1.active = some release ∨ Gone release s.2

/-- While the expected container is the pending release's own, the run is no rollback to
another release and Compose does not refuse the release's document. -/
def Clear (record : Record) (release : Uuid) (log : Log) : Prop :=
  record.expectedActualReleaseId = some release →
    (record.trigger = .rollback → ∀ target, record.rollbackTargetReleaseId = some target →
      target = release) ∧ ¬Refused release log

theorem gone_of_shown {release : Uuid} {expected : Option Uuid} {log : Log}
    (h : Shown expected log) (hne : expected ≠ some release) : Gone release log := by
  obtain ⟨cs, hlisted, hcs⟩ := h
  refine ⟨cs, hlisted, fun c hc heq => hne ?_⟩
  rw [← hcs c hc]
  exact heq

section Steps

variable {record : Record} {p : Uuid} {s s' : State}

theorem mayRelease_of_letGo (hp : record.expectedPendingReleaseId = some p)
    (hclear : Clear record p s.2) (hactive : s'.1.active = s.1.active)
    (h : LetGo record s.1 p s.2) : MayRelease p s s' := by
  rcases h with hnone | ⟨hrefused, hshown⟩ | hempty | ⟨old, hold, hshown⟩
  · rw [hp] at hnone
    cases hnone
  · refine .inr (gone_of_shown hshown fun hown => ?_)
    exact (hclear hown).2 hrefused
  · exact .inr ⟨[], hempty, fun c hc => absurd hc List.not_mem_nil⟩
  · by_cases heq : old = p
    · exact .inl (by rw [hactive, hold, heq])
    · exact .inr (gone_of_shown hshown fun h => heq (Option.some.inj h))

/-- A step keeps the pending link, or may release it. -/
theorem step_retains (hp : record.expectedPendingReleaseId = some p)
    (hclear : Clear record p s.2) (hpending : s.1.pending = some p) {e : Call} {answer : e.Answer}
    (hlog : s'.2 = ⟨s.1, e, answer⟩ :: s.2) (hlaw : LinkLaw record s') :
    s'.1.pending = some p ∨ MayRelease p s s' := by
  unfold LinkLaw at hlaw
  rw [hlog] at hlaw
  rcases hlaw with hsame | ⟨q, hq, hactive⟩ | ⟨hactive, hreason⟩
  · exact .inl (hsame.trans hpending)
  · obtain rfl : p = q := Option.some.inj (hpending.symm.trans hq)
    exact .inr (.inl hactive)
  · cases e with
    | setPending q =>
      obtain ⟨hnew, hcandidate⟩ := hreason
      -- the link names `p`, so it is redirected to another release
      have hne : q ≠ p := fun heq => hnew (heq ▸ hpending)
      rcases hcandidate with hnone | hsome | ⟨htrigger, htarget, hshown⟩
      · rw [hp] at hnone
        cases hnone
      · rw [hp] at hsome
        exact absurd (Option.some.inj hsome).symm hne
      · refine .inr (.inr (gone_of_shown hshown fun hown => ?_))
        exact hne ((hclear hown).1 htrigger q htarget)
    | removePendingIf q =>
      obtain ⟨hnamed, hletGo⟩ := hreason
      obtain rfl : p = q := Option.some.inj (hpending.symm.trans hnamed)
      exact .inr (mayRelease_of_letGo hp hclear hactive hletGo)
    | _ => exact hreason.elim

end Steps

section Run

variable (record : Record) (slug : String) (active pending : Option Uuid)
  (containers : List ContainerRecord) (o : deployWorld.Script)

/-- The log of a run only grows. -/
theorem log_runState_mono {j k : Nat} (h : j ≤ k) :
    (runState record slug active pending containers o j).2 <:+
      (runState record slug active pending containers o k).2 := by
  induction h with
  | refl => exact List.suffix_refl _
  | @step k _ ih =>
    refine ih.trans ?_
    unfold runState
    rcases World.cut_traced_succ deployWorld o 0 k spawn _ with hsame | ⟨e, answer, hlog⟩
    · exact ⟨[], congrArg Prod.snd hsame.symm⟩
    · rw [hlog]
      exact List.suffix_cons _ _

/-- A run whose row expects `p` to be pending, up to its `k`-th call. Every call that changes
the link away from `p` may release it; so if no call has, the link still names `p`. -/
theorem expected_pending_retained {p : Uuid} (hp : record.expectedPendingReleaseId = some p)
    (k : Nat) (hclear : Clear record p (runState record slug active pending containers o k).2) :
    let after := runState record slug active pending containers o
    (∀ j < k, (after j).1.pending = some p →
      (after (j + 1)).1.pending = some p ∨ MayRelease p (after j) (after (j + 1))) ∧
    (pending = some p → (after k).1.pending = some p ∨
      ∃ j < k, (after j).1.pending = some p ∧ (after (j + 1)).1.pending ≠ some p ∧
        MayRelease p (after j) (after (j + 1))) := by
  intro after
  have hstep : ∀ j < k, (after j).1.pending = some p →
      (after (j + 1)).1.pending = some p ∨ MayRelease p (after j) (after (j + 1)) := by
    intro j hj hpending
    have hlog : (after j).2 <:+ (after k).2 :=
      log_runState_mono record slug active pending containers o (Nat.le_of_lt hj)
    have hclear' : Clear record p (after j).2 := fun hown =>
      ⟨(hclear hown).1, fun hrefused => (hclear hown).2 (hrefused.mono hlog)⟩
    rcases World.cut_traced_succ deployWorld o 0 j spawn _ with hsame | ⟨e, answer, hnext⟩
    · exact .inl ((congrArg (·.1.pending) hsame).trans hpending)
    · have hlaw : Law record active pending (after (j + 1)) :=
        law_cut (scheduled record slug active pending containers) rfl o (j + 1)
      exact step_retains hp hclear' hpending hnext hlaw.1
  refine ⟨hstep, fun hpending => ?_⟩
  -- up to any call before the `k`-th
  suffices h : ∀ m ≤ k, (after m).1.pending = some p ∨
      ∃ j < m, (after j).1.pending = some p ∧ (after (j + 1)).1.pending ≠ some p ∧
        MayRelease p (after j) (after (j + 1)) from h k (Nat.le_refl k)
  intro m
  induction m with
  | zero =>
    intro _
    refine .inl ((congrArg (·.1.pending) (World.cut_zero engineWorld o 0 spawn _)).trans hpending)
  | succ m ih =>
    intro hm
    rcases ih (Nat.le_of_succ_le hm) with hkept | ⟨j, hj, hreleased⟩
    · by_cases hnext : (after (m + 1)).1.pending = some p
      · exact .inl hnext
      · have hmay := (hstep m hm hkept).resolve_left hnext
        exact .inr ⟨m, Nat.lt_succ_self m, hkept, hnext, hmay⟩
    · exact .inr ⟨j, Nat.lt_succ_of_lt hj, hreleased⟩

end Run

/-! ## A release whose own container runs -/

/-- A first deployment was interrupted after its candidate 1 was started, and is retried: the
container it expects is the candidate's own. -/
def retryRecord : Record :=
  { firstRecord with
    expectedPendingReleaseId := some 1
    expectedActualReleaseId := some 1
    expectedActualContainerId := some "new" }

/-- Compose stops and starts the container, but refuses the document when it is to be
recreated. -/
def refusesDocument : deployWorld.Script
  | _, .compose .deployCandidate _ =>
    ⟨.error .validationFailed, fun _ => exitedRuntime, fun _ => true, []⟩
  | _, .compose .stop _ => ⟨.ok (), fun _ => exitedRuntime, fun _ => true, []⟩
  | _, .compose .. => ⟨.ok (), fun _ => runningPredecessor.runtime, fun _ => true, []⟩
  | n, e => startsWell n e

/-- Instead, an operator rolls back to release 9, whose image cannot be pulled. -/
def rollbackRecord : Record :=
  { retryRecord with trigger := .rollback, rollbackTargetReleaseId := some 9 }

def pullFails : deployWorld.Script
  | _, .pull .. => .error .unavailable
  | n, e => startsWell n e

instance (release : Uuid) (log : Log) : Decidable (Refused release log) :=
  inferInstanceAs (Decidable (∃ ev ∈ log, refused ev = some release))

/-- The image cannot be pulled when the deployment is retried: the link is kept. -/
theorem failed_pull_retains_pending :
    let after := runState retryRecord "web" none (some 1) [startedContainer] pullFails
    (after 100).1.status = .needsAttention ∧ (after 100).1.pending = some 1 ∧
      ∀ j < 100, (after j).1.pending = some 1 →
        (after (j + 1)).1.pending = some 1 ∨ MayRelease 1 (after j) (after (j + 1)) := by
  refine ⟨by decide +kernel, by decide +kernel, ?_⟩
  refine (expected_pending_retained retryRecord "web" none (some 1) [startedContainer] pullFails
    rfl 100 fun _ => ⟨nofun, ?_⟩).1
  decide +kernel

/-- The document is refused when the deployment is retried: the link is removed, although the
release is not active and its container is there and was seen last. The rollback redirects
the link at once, and when the pull fails it stays redirected. -/
theorem own_container_loses_link :
    let refused := runState retryRecord "web" none (some 1) [startedContainer] refusesDocument 100
    let rollback := runState rollbackRecord "web" none (some 1) [startedContainer] pullFails 100
    (refused.1.status = .failed ∧ refused.1.pending = none ∧ refused.1.active = none ∧
      (listed refused.2).map (·.map (·.releaseId)) = some [some 1] ∧
      refused.1.core.containers.map (·.id) = ["new"]) ∧
    (rollback.1.status = .needsAttention ∧ rollback.1.pending = some 9 ∧
      rollback.1.active = none ∧ (listed rollback.2).map (·.map (·.releaseId)) = some [some 1] ∧
      rollback.1.core.containers.map (·.id) = ["new"]) := by
  decide +kernel

end SoloDock.Deploy
