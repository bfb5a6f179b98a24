import SoloDock.Deploy.Account
import SoloDock.Deploy.Footprint

/-!
# Every run obeys the law

One pass over the engine, function by function. The calls come first, then what the engine
learns from looking (containers, links, releases), then the run. The pending link is written
in five places and each of them meets its reason here; the three good terminal statuses are
recorded in four places and each of them meets its meaning.
-/

namespace SoloDock.Deploy

open Lib Lib.Prog Registry Docker
open List (suffix_cons)

variable {err : EngineError} {candidate : Uuid} {record : Record} {a₀ p₀ : Option Uuid}
  {release : Uuid} {action : ComposeAction}

section Calls

variable {s : State} {α : Type} {e : Call} {k : e.Answer → EngineProg α} {I : α → State → Prop}

theorem run_step (h : ∀ c answer w, act s.1 e c = (answer, w) →
      Law record a₀ p₀ (w, ⟨s.1, e, answer⟩ :: s.2) ∧
        Run record a₀ p₀ (k answer) (w, ⟨s.1, e, answer⟩ :: s.2) I) :
    Run record a₀ p₀ (.call e k) s I :=
  fun c _ => h c _ _ rfl

theorem run_call (h : ∀ c answer w, act s.1 e c = (answer, w) →
      Open (w, ⟨s.1, e, answer⟩ :: s.2) ∧ w.pending = s.1.pending ∧
        Run record a₀ p₀ (k answer) (w, ⟨s.1, e, answer⟩ :: s.2) I) :
    Run record a₀ p₀ (.call e k) s I := by
  refine run_step fun c answer w hact => ?_
  obtain ⟨hopen, hpending, hk⟩ := h c answer w hact
  exact ⟨law_of_open hopen hpending, hk⟩

variable {expected : Option Uuid}

/-! ## Looking -/

theorem readMetadata_run (hs : Open s) : Run record a₀ p₀ (readMetadata err) s fun m s' =>
      Follows s s' ∧ m.slug = (view s).slug := by
  refine run_call fun c answer w hact => ?_
  cases hact
  refine ⟨hs, rfl, ?_⟩
  cases c with
  | none => exact hs
  | some m => exact ⟨⟨view_cons rfl rfl rfl, suffix_cons _ _⟩, rfl⟩

theorem minimalApp_run (hs : Open s) (appId : Uuid) :
    Run record a₀ p₀ (minimalApp appId) s fun app s' =>
      Follows s s' ∧ app = ⟨appId, projectName (view s).slug⟩ := by
  refine run_bind (readMetadata_run hs) fun m s' h => ?_
  exact ⟨h.1, by rw [h.2]⟩

theorem listComposeAppContainers_run (hs : Open s) (err : EngineError) {project : String}
    (hproject : project = projectName (view s).slug) :
    Run record a₀ p₀ (listComposeAppContainers err project) s fun cs s' =>
      Becomes s { view s with listed := some cs } s' := by
  refine run_call fun ok answer w hact => ?_
  cases ok with
  | false =>
    cases hact
    exact ⟨hs, rfl, hs⟩
  | true =>
    have hown : project = projectName s.1.slug := hproject
    have hlist : act s.1 (.listComposeAppContainers project) true =
        (some s.1.core.containers, s.1) := congrArg (fun cs => (some cs, s.1)) (if_pos hown)
    cases hlist.symm.trans hact
    have hlisting : listing ⟨s.1, .listComposeAppContainers project,
        some s.1.core.containers⟩ = some s.1.core.containers := if_pos hown
    refine ⟨hs, rfl, ?_, suffix_cons _ _⟩
    simp [view, listed, gated, composed, sinceCompose, hlisting, gate, Call.isCompose]

theorem readReleaseLink_run (hs : Open s) {link : Link} :
    Run record a₀ p₀ (readReleaseLink link) s fun id s' =>
      Follows s s' ∧ id = match link with
        | .active => (view s).active
        | .pending => (view s).pending := by
  refine run_call fun ok answer w hact => ?_
  have hfollows : Follows s (s.1, ⟨s.1, .readReleaseLink link, answer⟩ :: s.2) :=
    ⟨view_cons rfl rfl rfl, suffix_cons _ _⟩
  cases link <;> cases ok <;> cases hact
  · exact ⟨hs, rfl, hs⟩
  · exact ⟨hs, rfl, hfollows, rfl⟩
  · exact ⟨hs, rfl, hs⟩
  · exact ⟨hs, rfl, hfollows, rfl⟩

variable {id : Uuid}

theorem loadV2Release_run (hs : Open s) :
    Run record a₀ p₀ (loadV2Release err id) s fun release s' =>
      Follows s s' ∧ Loaded id release s'.2 := by
  refine run_call fun c answer w hact => ?_
  cases hact
  refine ⟨hs, rfl, ?_⟩
  cases c with
  | none => exact hs
  | some release =>
    exact ⟨⟨view_cons rfl rfl rfl, suffix_cons _ _⟩, _, List.mem_cons_self, rfl⟩

theorem loadVerified_run (hs : Open s) {revision : Uuid} :
    Run record a₀ p₀ (loadVerified err revision) s fun config s' =>
      Follows s s' ∧ ConfigLoaded revision config s'.2 := by
  refine run_call fun c answer w hact => ?_
  cases hact
  refine ⟨hs, rfl, ?_⟩
  cases c with
  | none => exact hs
  | some config =>
    exact ⟨⟨view_cons rfl rfl rfl, suffix_cons _ _⟩, _, List.mem_cons_self, rfl⟩

/-! ## Writing -/

theorem note_cases (w : Machine) (ok : Bool) (effects : Effects) :
    w.note ok effects = (some (), { w with effects }) ∨ w.note ok effects = (none, w) := by
  cases ok
  · exact .inr rfl
  · exact .inl rfl

section

variable (hs : Open s)

include hs

theorem markEffectStarted_run {pre startedAt : Option String} :
    Run record a₀ p₀ (markEffectStarted pre startedAt) s fun _ s' =>
      ∃ effects, Becomes s { view s with effects } s' := by
  refine run_call fun ok answer w hact => ?_
  rcases note_cases .. with h | h <;> cases h.symm.trans hact
  · exact ⟨hs, rfl, _, view_cons rfl rfl rfl, suffix_cons _ _⟩
  · exact ⟨hs, rfl, hs⟩

theorem markEffectObserved_run {post : String} :
    Run record a₀ p₀ (markEffectObserved post) s fun _ s' =>
      ∃ effects, effects.postContainerId = some post ∧ Becomes s { view s with effects } s' := by
  refine run_call fun ok answer w hact => ?_
  rcases note_cases .. with h | h <;> cases h.symm.trans hact
  · exact ⟨hs, rfl, _, rfl, view_cons rfl rfl rfl, suffix_cons _ _⟩
  · exact ⟨hs, rfl, hs⟩

theorem markRollbackStarted_run {pre : String} :
    Run record a₀ p₀ (markRollbackStarted pre) s fun _ s' =>
      ∃ effects, effects.rollbackPreContainerId = some pre ∧
        Becomes s { view s with effects } s' := by
  refine run_call fun ok answer w hact => ?_
  rcases note_cases .. with h | h <;> cases h.symm.trans hact
  · exact ⟨hs, rfl, _, rfl, view_cons rfl rfl rfl, suffix_cons _ _⟩
  · exact ⟨hs, rfl, hs⟩

theorem markRollbackObserved_run (post : Option String) :
    Run record a₀ p₀ (markRollbackObserved post) s fun _ s' =>
      ∃ effects, effects.rollbackPostContainerId = post ∧
        effects.rollbackPreContainerId = (view s).effects.rollbackPreContainerId ∧
        Becomes s { view s with effects } s' := by
  refine run_call fun ok answer w hact => ?_
  rcases note_cases .. with h | h <;> cases h.symm.trans hact
  · refine ⟨hs, rfl, { s.1.effects with
      rollbackPhase := some .observed, rollbackPostContainerId := post }, rfl, rfl, ?_⟩
    exact ⟨view_cons rfl rfl rfl, suffix_cons _ _⟩
  · exact ⟨hs, rfl, hs⟩

theorem resolvedRow_run {predecessor : Option Uuid}
    {source descriptor manifest platform : String} : Run record a₀ p₀
      (resolvedRow candidate predecessor source descriptor manifest platform) s fun _ s' =>
        Becomes s { view s with candidate := some candidate } s' := by
  refine run_call fun ok answer w hact => ?_
  unfold act at hact
  dsimp only at hact
  split at hact <;> cases hact
  · exact ⟨hs, rfl, view_cons rfl rfl rfl, suffix_cons _ _⟩
  · exact ⟨hs, rfl, hs⟩

theorem composeRun_run :
    Run record a₀ p₀ (composeRun action release) s fun r s' =>
      Becomes s { view s with listed := none, gated := none, composed := true } s' ∧
        ∀ e, action = .deployCandidate → r = .error e → e.isValidation = true →
          Refused release s'.2 := by
  refine run_call fun o answer w hact => ?_
  cases action with
  | deployCandidate =>
    cases hact
    refine ⟨hs, rfl, ⟨rfl, suffix_cons _ _⟩, fun e _ hr hvalid => ?_⟩
    refine ⟨_, List.mem_cons_self, ?_⟩
    rw [hr]
    exact if_pos hvalid
  | start | stop | remove =>
    cases hact
    exact ⟨hs, rfl, ⟨rfl, suffix_cons _ _⟩, fun _ heq => by cases heq⟩

theorem verifyHealth_run {containerId : String} {imageRef : String}
    {identity : ImageIdentity} {policy : HealthPolicy} :
    Run record a₀ p₀ (verifyHealth containerId release imageRef identity policy) s
      fun r s' => match r with
        | .ok verified => Becomes s { view s with
            gated := some ⟨⟨containerId, release, imageRef, identity⟩, policy, verified⟩ } s' ∧
          Passed ⟨containerId, release, imageRef, identity⟩ policy verified
        | .error _ => Follows s s' := by
  refine run_call fun o answer w hact => ?_
  cases hact
  refine ⟨hs, rfl, ?_⟩
  cases hverify : verify ⟨containerId, release, imageRef, identity⟩ policy o.1 with
  | ok verified =>
    refine ⟨⟨?_, suffix_cons _ _⟩, verify_ok hverify⟩
    simp [view, listed, gated, composed, sinceCompose, listing, gate, Call.isCompose]
  | error e => exact ⟨view_cons rfl rfl rfl, suffix_cons _ _⟩

end

/-! ## The links -/

theorem setPending_run (hs : Open s) (hnew : (view s).pending ≠ some id)
    (hcandidate : IsCandidate record id s.2) : Run record a₀ p₀ (setPending id) s fun _ s' =>
      Becomes s { view s with pending := some id } s' := by
  intro o _
  refine ⟨⟨.inr (.inr ⟨?_, hnew, hcandidate⟩), meaning_of_open ?_⟩, ?_⟩
  · cases o <;> rfl
  · cases o <;> exact hs
  · cases o with
    | ok => exact ⟨view_cons rfl rfl rfl, suffix_cons _ _⟩
    | failed applied => exact hs

theorem removePendingIf_run (hs : Open s)
    (hreason : (view s).pending = some id → LetGo record s.1 id s.2) :
    Run record a₀ p₀ (removePendingIf id) s fun _ s' =>
      Becomes s { view s with pending := unlinkIf id (view s).pending } s' := by
  intro o _
  refine ⟨⟨?_, meaning_of_open ?_⟩, ?_⟩
  · by_cases hnamed : s.1.pending = some id
    · refine .inr (.inr ⟨?_, hnamed, hreason hnamed⟩)
      cases o <;> rfl
    · -- the link names another release, and stays
      have hkeep : unlinkIf id s.1.pending = s.1.pending := if_neg hnamed
      refine .inl ?_
      cases o with
      | ok => exact hkeep
      | failed applied =>
        show (if applied = true then unlinkIf id s.1.pending else s.1.pending) = s.1.pending
        rw [hkeep]
        split <;> rfl
  · cases o <;> exact hs
  · cases o with
    | ok => exact ⟨view_cons rfl rfl rfl, suffix_cons _ _⟩
    | failed applied => exact hs

theorem unlinkIf_cases (id : Uuid) (pending : Option Uuid) :
    unlinkIf id pending = pending ∨ pending = some id := by
  by_cases h : pending = some id
  · exact .inr h
  · exact .inl (if_neg h)

theorem finalizeActive_cases (w : Machine) (expected : Option Uuid) (id : Uuid)
    (desired : DesiredState) (o : FinalizeOutcome) : act w (.finalizeActive expected id desired) o =
        (some (), { w with active := some id, pending := unlinkIf id w.pending }) ∨
      act w (.finalizeActive expected id desired) o = (none, w) ∨
      act w (.finalizeActive expected id desired) o = (none, { w with active := some id }) ∨
      act w (.finalizeActive expected id desired) o =
        (none, { w with active := some id, pending := unlinkIf id w.pending }) := by
  unfold act
  dsimp only
  split
  · cases o with
    | ok => exact .inl rfl
    | unlinked => exact .inr (.inl rfl)
    | linked => exact .inr (.inr (.inl rfl))
    | cleared => exact .inr (.inr (.inr rfl))
  · exact .inr (.inl rfl)

theorem finalizeActive_run (hs : Open s)
    {desired : DesiredState} : Run record a₀ p₀ (finalizeActive expected id desired) s fun _ s' =>
      Becomes s { view s with active := some id, pending := unlinkIf id (view s).pending } s' := by
  have hcleared : ∀ answer, LinkLaw record
      ({ s.1 with active := some id, pending := unlinkIf id s.1.pending },
        (⟨s.1, .finalizeActive expected id desired, answer⟩ : Step) :: s.2) := by
    intro answer
    rcases unlinkIf_cases id s.1.pending with hkeep | hnamed
    · exact .inl hkeep
    · exact .inr (.inl ⟨id, hnamed, rfl⟩)
  refine run_step fun o answer w hact => ?_
  rcases finalizeActive_cases s.1 expected id desired o with h | h | h | h <;>
    cases h.symm.trans hact
  · exact ⟨⟨hcleared _, meaning_of_open hs⟩, view_cons rfl rfl rfl, suffix_cons _ _⟩
  · exact ⟨law_of_open hs rfl, hs⟩
  · exact ⟨law_of_open hs rfl, hs⟩
  · exact ⟨⟨hcleared _, meaning_of_open hs⟩, hs⟩

theorem transition_run (hs : Open s) {status : Status} {result : String} {code : Option String}
    (hmeaning : ∀ ev : Step, view (s.1, ev :: s.2) = view s →
      Meaning a₀ p₀ ({ s.1 with phase := .terminal, status }, ev :: s.2)) :
    Run record a₀ p₀ (transition .terminal status result code) s fun _ _ => True := by
  refine run_step fun ok answer w hact => ?_
  unfold act at hact
  dsimp only at hact
  split at hact <;> cases hact
  · exact ⟨⟨.inl rfl, hmeaning _ (view_cons rfl rfl rfl)⟩, trivial⟩
  · exact ⟨law_of_open hs rfl, hs⟩

end Calls

section Looking

variable {s : State}

theorem listApp_run (hs : Open s) (appId : Uuid)
    {k : AppIdentity → List ContainerRecord → EngineProg α} {I : α → State → Prop}
    (hk : ∀ cs s', Becomes s { view s with listed := some cs } s' →
      Run record a₀ p₀ (k ⟨appId, projectName (view s).slug⟩ cs) s' I) :
    Run record a₀ p₀ (do
      let app ← minimalApp appId
      let candidates ← listComposeAppContainers err app.projectName
      k app candidates) s I := by
  refine run_bind (minimalApp_run hs appId) fun app s1 h1 => ?_
  obtain ⟨hfollows, rfl⟩ := h1
  refine run_bind (listComposeAppContainers_run (hfollows.open hs) err (by rw [hfollows.1])) ?_
  intro cs s2 hlist
  rw [hfollows.1] at hlist
  exact hk cs s2 (hfollows.trans hlist)

theorem preflight_run (hs : Open s) {appId : Uuid} {expectedRelease : Option Uuid}
    {expectedContainerId : Option String} :
    Run record a₀ p₀ (preflight appId expectedRelease expectedContainerId) s
      fun _ s' => ∃ cs, Becomes s { view s with listed := some cs } s' ∧
        ∀ c ∈ cs, c.releaseId = expectedRelease := by
  refine listApp_run hs appId fun cs s' hlist => ?_
  have hopen : Open s' := hlist.open hs
  match cs with
  | [] =>
    refine run_ensure_bind hopen fun _ => ?_
    exact run_pure ⟨[], hlist, fun _ hc => absurd hc List.not_mem_nil⟩
  | [candidate] =>
    refine run_orStop_bind hopen fun release howner => ?_
    refine run_ensure_bind hopen fun hexpected => ?_
    refine ⟨[candidate], hlist, fun c hc => ?_⟩
    obtain rfl := List.mem_singleton.mp hc
    have hrelease := validateSyntacticIdentity_releaseId howner
    simp only [Bool.and_eq_true, decide_eq_true_eq] at hexpected
    exact hrelease.trans hexpected.1
  | _ :: _ :: _ => exact run_stop hopen

theorem observeOwnedCandidate_run (hs : Open s) {appId release : Uuid} {oldId : Option String} :
    Run record a₀ p₀ (observeOwnedCandidate appId release oldId) s fun c s' =>
      Becomes s { view s with listed := some [c] } s' ∧
        validateSyntacticIdentity c ⟨appId, projectName (view s).slug⟩ = some release ∧
        oldId ≠ some c.id := by
  refine listApp_run hs appId fun cs s' hlist => ?_
  have hopen : Open s' := hlist.open hs
  match cs with
  | [] => exact run_stop hopen
  | [candidate] =>
    refine run_orStop_bind hopen fun owner howner => ?_
    refine run_ensure_bind hopen fun hrelease => ?_
    refine run_ensure_bind hopen fun hold => ?_
    obtain rfl : owner = release := by simpa using hrelease
    exact ⟨hlist, howner, by simpa using hold⟩
  | _ :: _ :: _ => exact run_stop hopen

/-- What is seen after a failed apply: the containers the run expected, or the candidate. -/
def Observed (record : Record) (s : State) (seen : FailedApplyObservation) (s' : State) : Prop :=
  ∃ cs, Becomes s { view s with listed := some cs } s' ∧
    match seen with
    | .noEffect => ∀ c ∈ cs, c.releaseId = record.expectedActualReleaseId
    | .candidate _ => True

theorem observeFailedApply_run (hs : Open s) :
    Run record a₀ p₀ (observeFailedApply record candidate) s (Observed record s) := by
  refine listApp_run hs record.appId fun cs s1 hlist => ?_
  have hopen : ∀ {cs : List ContainerRecord} {s' : State},
      Becomes s { view s with listed := some cs } s' → Open s' := by
    intro cs s' h
    exact h.open hs
  match cs with
  | [] =>
    refine run_ensure_bind (hopen hlist) fun _ => ?_
    exact run_pure ⟨[], hlist, fun _ hc => absurd hc List.not_mem_nil⟩
  | [container] =>
    have hcandidate : ∀ s', Becomes s { view s with listed := some [container] } s' →
        Run record a₀ p₀ (do
          let owner ← orStop (validateSyntacticIdentity container
            ⟨record.appId, projectName (view s).slug⟩) .interrupted
          ensure (owner = candidate) .interrupted
          return FailedApplyObservation.candidate container) s' (Observed record s) := by
      intro s' hlist
      refine run_orStop_bind (hopen hlist) fun owner _ => ?_
      refine run_ensure_bind (hopen hlist) fun _ => ?_
      exact run_pure ⟨[container], hlist, trivial⟩
    dsimp only
    split
    · refine run_bind (minimalApp_run (hopen hlist) _) fun app s2 h => ?_
      have hlist := hlist.follow h.1
      refine run_orStop_bind (hopen hlist) fun owner howner => ?_
      split
      next hexpected =>
        refine run_pure ⟨[container], hlist, fun c hc => ?_⟩
        obtain rfl := List.mem_singleton.mp hc
        exact (validateSyntacticIdentity_releaseId howner).trans hexpected
      · exact hcandidate _ hlist
    · exact hcandidate _ hlist
  | _ :: _ :: _ => exact run_stop (hopen hlist)

theorem verifyReleaseLinks_run (hs : Open s) {active : Option Uuid} {pending : Uuid} :
    Run record a₀ p₀ (verifyReleaseLinks active pending) s fun _ s' =>
      Follows s s' ∧ (view s).active = active ∧ (view s).pending = some pending := by
  refine run_bind (readReleaseLink_run hs) fun currentActive s1 h1 => ?_
  obtain ⟨hfollows, rfl⟩ := h1
  refine run_ensure_bind (hfollows.open hs) fun hactive => ?_
  refine run_bind (readReleaseLink_run (hfollows.open hs)) fun currentPending s3 h3 => ?_
  obtain ⟨hread, rfl⟩ := h3
  have hfollows3 : Follows s s3 := hfollows.follow hread
  refine run_ensure_bind (hfollows3.open hs) fun hpending => ?_
  refine run_bind (loadV2Release_run (hfollows3.open hs)) fun _ s5 h5 => ?_
  rw [hfollows.1] at hpending
  exact run_pure ⟨hfollows3.follow h5.1, by simpa using hactive, by simpa using hpending⟩

theorem reloadCandidate_run (hs : Open s) {release : Release} :
    Run record a₀ p₀ (reloadCandidate candidate release) s fun config s' =>
      Follows s s' ∧ Loaded candidate release s'.2 ∧
        ConfigLoaded release.configRevision config s'.2 := by
  refine run_bind (loadV2Release_run hs) fun final s1 h1 => ?_
  obtain ⟨hfollows, hloaded⟩ := h1
  refine run_ensure_bind (hfollows.open hs) fun hsame => ?_
  obtain rfl : final = release := by simpa using hsame
  refine run_mono (loadVerified_run (hfollows.open hs)) fun config s3 h3 => ?_
  exact ⟨hfollows.follow h3.1, hloaded.mono h3.1.2, h3.2⟩

end Looking

/-! ## Parts that write nothing -/

/-- The calls that write neither links nor the ledger's columns. -/
def Tame (e : Call) : Prop :=
  Passive e = true ∨ e.isCompose = true ∨ match e with
    | .listComposeAppContainers .. | .verifyHealth .. => True
    | _ => False

/-- At most what was seen has changed. -/
def Stays (s s' : State) : Prop :=
  ∃ l g b, Becomes s { view s with listed := l, gated := g, composed := b } s'

section Tame

variable {s s' s'' : State} {α β : Type}

theorem Follows.stays (h : Follows s s') : Stays s s' := ⟨_, _, _, h⟩

theorem Stays.trans (h : Stays s s') (h' : Stays s' s'') : Stays s s'' := by
  obtain ⟨l, g, b, hview, hlog⟩ := h
  obtain ⟨l', g', b', hview', hlog'⟩ := h'
  rw [hview] at hview'
  exact ⟨l', g', b', hview', hlog.trans hlog'⟩

variable {p : EngineProg α}

theorem Stays.get (h : Stays s s') (f : View → β)
    (hf : ∀ v l g b, f { v with listed := l, gated := g, composed := b } = f v) :
    f (view s') = f (view s) := by
  obtain ⟨l, g, b, hview, -⟩ := h
  rw [hview]
  exact hf (view s) l g b

theorem Stays.log (h : Stays s s') : s.2 <:+ s'.2 := by
  obtain ⟨l, g, b, -, hlog⟩ := h
  exact hlog

theorem Stays.open (h : Stays s s') (hs : Open s) : Open s' :=
  (h.get View.opened fun _ _ _ _ => rfl).trans hs

theorem tame_stays {e : Call} (he : Tame e) (s : State) (c : Choice e) :
    Stays s (engineWorld.act s e c).2 := by
  cases e with
  | listComposeAppContainers => exact ⟨_, _, _, rfl, suffix_cons _ _⟩
  | compose action release => cases action <;> exact ⟨_, _, _, rfl, suffix_cons _ _⟩
  | verifyHealth => exact ⟨_, _, _, rfl, suffix_cons _ _⟩
  | _ =>
    refine Follows.stays ⟨passive_view ?_ s c, suffix_cons _ _⟩
    rcases he with he | he | he
    · exact he
    · cases he
    · cases he

theorem run_tame (hp : p.Only Tame) (hs : Open s) :
    Run record a₀ p₀ p s fun _ s' => Stays s s' := by
  induction p generalizing s with
  | done a => exact (Follows.refl s).stays
  | fail err => exact hs
  | call e k ih =>
    intro c _
    have hstays : Stays s (engineWorld.act s e c).2 := tame_stays hp.1 s c
    have hopen := hstays.open hs
    have hpending : (engineWorld.act s e c).2.1.pending = s.1.pending :=
      hstays.get View.pending fun _ _ _ _ => rfl
    refine ⟨law_of_open hopen hpending, ?_⟩
    exact run_mono (ih _ (hp.2 _) hopen) fun _ _ h => hstays.trans h

theorem run_stays {k : α → EngineProg β} {J : β → State → Prop}
    (hp : p.Only Tame) (h : Stays s s') (hs : Open s)
    (hk : ∀ a s'', Stays s s'' → Run record a₀ p₀ (k a) s'' J) : Run record a₀ p₀ (p >>= k) s' J :=
  run_bind (run_tame hp (h.open hs)) fun a s'' h' => hk a s'' (h.trans h')

end Tame

section Parts

theorem passive_tame {p : EngineProg α} (hp : p.Only fun e => Passive e = true) : p.Only Tame :=
  hp.mono fun _ he => .inl he

theorem context_passive : (context release).Only fun e => Passive e = true :=
  only_get rfl fun _ => only_get rfl fun _ => only_pure _

variable {binds : List BindIdentity} {config : Config}

theorem revalidateAll_passive : (revalidateAll err binds).Only fun e => Passive e = true := by
  induction binds with
  | nil => exact only_pure _
  | cons identity rest ih => exact only_get rfl fun _ => ih

theorem validateRuntimePathsFresh_passive :
    (validateRuntimePathsFresh config).Only fun e => Passive e = true :=
  only_bind (only_orElse_call rfl) fun _ => only_orElse_call rfl

theorem checkNetwork_passive {predecessor : Option ContainerRecord} :
    (checkNetwork config predecessor).Only fun e => Passive e = true := by
  unfold checkNetwork
  split
  · exact only_get rfl fun _ => only_orElse_call rfl
  · exact only_pure _

theorem loadPredecessorBinds_passive :
    (loadPredecessorBinds record).Only fun e => Passive e = true := by
  unfold loadPredecessorBinds
  split
  · exact only_pure _
  · exact only_bind context_passive fun _ => only_get rfl fun _ =>
      only_get rfl fun _ => validateRuntimePathsFresh_passive

theorem recheckBinds_passive {prepared : Prepared} :
    (recheckBinds prepared).Only fun e => Passive e = true :=
  only_bind validateRuntimePathsFresh_passive fun _ => only_ensure_bind fun _ =>
    only_bind revalidateAll_passive fun _ => only_orElse_call rfl

theorem Observes.tame (e : Call) (he : Observes e = true) : Tame e := by
  cases e with
  | readMetadata => exact .inl rfl
  | listComposeAppContainers => exact .inr (.inr trivial)
  | _ => cases he

theorem composeRun_tame : (composeRun action release).Only Tame :=
  ⟨.inr (.inl rfl), fun _ => trivial⟩

theorem stopPredecessor_tame : (stopPredecessor record).Only Tame := by
  unfold stopPredecessor
  split
  · exact only_pure _
  · refine only_bind composeRun_tame fun result => ?_
    split
    · exact only_stop _
    · refine only_bind (preflight_observes.mono Observes.tame) fun seen => ?_
      split
      · exact only_ensure _ _
      · exact only_stop _

theorem stopCandidate_tame {fresh : ContainerRecord} :
    (stopCandidate record candidate config binds fresh).Only Tame := by
  refine only_bind (passive_tame context_passive) fun _ => ?_
  refine only_bind composeRun_tame fun _ => only_orElse_bind fun _ => ?_
  refine only_bind (observeOwnedCandidate_observes.mono Observes.tame)
    fun _ => only_bind (only_ensure _ _)
    fun _ => ?_
  refine only_bind (passive_tame validateRuntimePathsFresh_passive) fun _ => ?_
  refine only_ensure_bind fun _ => ?_
  exact only_bind (passive_tame revalidateAll_passive) fun _ => only_orElse_call (.inl rfl)

end Parts

end SoloDock.Deploy
