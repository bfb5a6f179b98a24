import SoloDock.Deploy.Lawful

/-!
# Whole runs

The functions of the engine that write, from the last to the first: compensation, commit,
apply, the pull, the candidate, the run. Each is followed from what its caller has seen, and
each ends with the law kept.
-/

namespace SoloDock.Deploy

open Lib Lib.Prog Registry Docker

section Runs

variable {record : Record} {a₀ p₀ : Option Uuid} {s s' : State}

/-! ## Evidence -/

variable {id : String}

theorem Proven.mono {release : Uuid} (h : Proven s release id)
    (hlog : s.2 <:+ s'.2) (hlisted : (view s').listed = (view s).listed)
    (hgated : (view s').gated = (view s).gated) (hrecord : (view s').record = (view s).record)
    (hslug : (view s').slug = (view s).slug) : Proven s' release id := by
  obtain ⟨x, hx⟩ := h
  have hlisted : listed s'.2 = listed s.2 := hlisted
  have hgated : gated s'.2 = gated s.2 := hgated
  have hrecord : s'.1.record = s.1.record := hrecord
  have hslug : s'.1.slug = s.1.slug := hslug
  exact ⟨x, {
    loaded := hx.loaded.mono hlog
    configured := hx.configured.mono hlog
    identity := hx.identity
    gated := hgated.trans hx.gated
    passed := hx.passed
    listed := hlisted.trans hx.listed
    same := hx.same
    owned := by rw [hrecord, hslug]; exact hx.owned
    running := hx.running
    rechecked := hx.rechecked }⟩

theorem Proven.of_look {release : Uuid} {x : Evidence}
    (hlist : Becomes s { view s with listed := some [x.final] } s')
    (hgated : (view s).gated = some
      ⟨⟨id, release, x.release.runnableImageRef, x.identity⟩, x.config.health, x.verified⟩)
    (hpassed : Passed ⟨id, release, x.release.runnableImageRef, x.identity⟩ x.config.health
      x.verified)
    (hloaded : Loaded release x.release s.2)
    (hconfig : ConfigLoaded x.release.configRevision x.config s.2)
    (hidentity : x.release.imageIdentity = .ok x.identity)
    (howned : validateSyntacticIdentity x.final
      ⟨(view s).record.appId, projectName (view s).slug⟩ = some release)
    (hsame : x.final.id = id) (hmatch : candidateMatchesRelease x.final x.release = true)
    (hrecheck : recheck x.verified x.final x.config.health = .ok ()) : Proven s' release id := by
  have hrecord : s'.1.record = (view s).record := congrArg View.record hlist.1
  have hslug : s'.1.slug = (view s).slug := congrArg View.slug hlist.1
  exact ⟨x, {
    loaded := hloaded.mono hlist.2
    configured := hconfig.mono hlist.2
    identity := hidentity
    gated := (congrArg View.gated hlist.1).trans hgated
    passed := hpassed
    listed := congrArg View.listed hlist.1
    same := hsame
    owned := by rw [hrecord, hslug]; exact howned
    running := hmatch
    rechecked := hrecheck }⟩

/-- The run is open, its row is `record`, and `active` is the active release it was scheduled
on. -/
structure Underway (record : Record) (active : Option Uuid) (s : State) : Prop where
  opened : Open s
  row : (view s).record = record
  link : (view s).active = active
  scheduled : record.fromReleaseId = active

variable {active : Option Uuid}

theorem Underway.stays (h : Underway record active s)
    (hstays : Stays s s') : Underway record active s' where
  opened := hstays.open h.opened
  row := (hstays.get View.record fun _ _ _ _ => rfl).trans h.row
  link := (hstays.get View.active fun _ _ _ _ => rfl).trans h.link
  scheduled := h.scheduled

variable {α β : Type} {p : EngineProg α} {k : α → EngineProg β} {J : β → State → Prop}
  {oldId : Uuid} {I : α → State → Prop}

theorem Underway.tame (h : Underway record active s) (hp : p.Only Tame)
    (hk : ∀ a s', Stays s s' → Underway record active s' → Run record a₀ p₀ (k a) s' J) :
    Run record a₀ p₀ (p >>= k) s J :=
  run_bind (run_tame hp h.opened) fun a s' hstays => hk a s' hstays (h.stays hstays)

theorem Underway.noted {effects : Effects} (h : Underway record active s)
    (hnoted : Becomes s { view s with effects } s') : Underway record active s' where
  opened := hnoted.open h.opened
  row := by rw [hnoted.1]; exact h.row
  link := by rw [hnoted.1]; exact h.link
  scheduled := h.scheduled

variable {candidate : Uuid}

/-! ## Compensation -/

/-- The failed first candidate is removed; the link is let go of once no container is left. -/
theorem removeFirstDeployCandidate_run (hs : Open s) :
    Run record a₀ p₀ (removeFirstDeployCandidate candidate) s fun _ s' => Open s' := by
  refine run_bind (readMetadata_run hs) fun metadata s1 h1 => ?_
  have hstays1 := h1.1.stays
  refine run_stays (only_orStop_call (.inl rfl)) hstays1 hs fun _ s2 hstays2 => ?_
  refine run_stays composeRun_tame hstays2 hs fun stopped s3 hstays3 => ?_
  refine run_orElse_bind (hstays3.open hs) fun _ _ => ?_
  refine run_stays composeRun_tame hstays3 hs fun removed s5 hstays5 => ?_
  have hopen5 := hstays5.open hs
  refine run_orElse_bind hopen5 fun _ _ => ?_
  have hslug : projectName metadata.slug = projectName (view s5).slug := by
    rw [h1.2, hstays5.get View.slug fun _ _ _ _ => rfl]
  refine run_bind (listComposeAppContainers_run hopen5 _ hslug) fun remaining s7 h7 => ?_
  have hopen7 : Open s7 := h7.open hopen5
  refine run_ensure_bind hopen7 fun hnone => ?_
  refine run_bind (markRollbackObserved_run hopen7 none) fun _ s9 h9 => ?_
  obtain ⟨effects, -, -, hnoted⟩ := h9
  have hopen9 : Open s9 := hnoted.open hopen7
  refine run_mono (removePendingIf_run hopen9 fun _ => .inr (.inr (.inl ?_))) ?_
  · have hlisted : (view s9).listed = some remaining := by rw [hnoted.1, h7.1]
    have hempty : remaining = [] := List.isEmpty_iff.mp hnone
    rw [hempty] at hlisted
    exact hlisted
  · exact fun _ s' h => h.open hopen9

variable {container : ContainerRecord} {release : Release} {code : String}

/-- The branch of `rollback_or_fail` without an active release. -/
theorem compensateFirstDeploy_run (hs : Open s) :
    Run record a₀ p₀ (compensateFirstDeploy record candidate release container code) s
      fun _ _ => True := by
  refine run_bind (markRollbackStarted_run hs) fun _ s1 h1 => ?_
  obtain ⟨effects, -, hnoted⟩ := h1
  have hopen1 := hnoted.open hs
  refine run_bind (verifyReleaseLinks_run hopen1) fun _ s2 h2 => ?_
  have hopen2 := h2.1.open hopen1
  refine run_bind (reloadCandidate_run hopen2) fun config s3 h3 => ?_
  have hopen3 := h3.1.open hopen2
  refine run_passive_bind validateRuntimePathsFresh_passive hopen3 fun binds s4 _ hopen4 => ?_
  refine run_passive_bind (only_orElse_call rfl) hopen4 fun _ s5 _ hopen5 => ?_
  refine run_bind (observeOwnedCandidate_run hopen5) fun final s6 h6 => ?_
  have hopen6 := h6.1.open hopen5
  refine run_ensure_bind hopen6 fun _ => ?_
  refine run_bind (run_passive revalidateAll_passive hopen6) fun _ s8 h8 => ?_
  refine run_bind (removeFirstDeployCandidate_run (h8.open hopen6)) fun _ s9 hopen9 => ?_
  exact run_stop hopen9

theorem prepareRollback_run (hs : Underway record (some oldId) s) {old release : Release} :
    Run record a₀ p₀ (prepareRollback record oldId candidate old release container) s
      fun prepared s' => Stays s s' ∧ (view s).pending = some candidate ∧
        Loaded oldId old s'.2 ∧ ConfigLoaded old.configRevision prepared.1 s'.2 ∧
        prepared.2.2.id = container.id := by
  refine run_bind (verifyReleaseLinks_run hs.opened) fun _ s1 h1 => ?_
  obtain ⟨hfollows1, -, hpending⟩ := h1
  have hopen1 := hfollows1.open hs.opened
  refine run_bind (loadV2Release_run hopen1) fun finalOld s2 h2 => ?_
  have hopen2 := h2.1.open hopen1
  refine run_bind (loadV2Release_run hopen2) fun finalCandidate s3 h3 => ?_
  have hopen3 := h3.1.open hopen2
  refine run_ensure_bind hopen3 fun hsame => ?_
  obtain rfl : finalOld = old := by
    simp only [Bool.and_eq_true, decide_eq_true_eq] at hsame
    exact hsame.1
  refine run_bind (loadVerified_run hopen3) fun config s5 h5 => ?_
  have hopen5 := h5.1.open hopen3
  refine run_passive_bind validateRuntimePathsFresh_passive hopen5
    fun binds s6 h6 hopen6 => ?_
  have hstays6 : Stays s s6 :=
    ((((hfollows1.follow h2.1).follow h3.1).follow h5.1).follow h6).stays
  refine run_bind (run_tame (observeOwnedCandidate_observes.mono Observes.tame) hopen6)
    fun fresh s7 h7 => ?_
  have hstays7 := hstays6.trans h7
  have hopen7 := hstays7.open hs.opened
  refine run_ensure_bind hopen7 fun hfresh => ?_
  -- the rest are checks, after which the three values are returned
  have hdone : ∀ s', Stays s7 s' → Stays s s' ∧ (view s).pending = some candidate ∧
      Loaded oldId finalOld s'.2 ∧ ConfigLoaded finalOld.configRevision config s'.2 ∧
      fresh.id = container.id := by
    intro s' h
    have hlog : s5.2 <:+ s'.2 := (h6.2.trans h7.log).trans h.log
    refine ⟨hstays7.trans h, hpending, ?_, h5.2.mono hlog, by simpa using hfresh⟩
    exact h2.2.mono ((h3.1.2.trans h5.1.2).trans hlog)
  refine run_passive_bind (only_orElse_call rfl) hopen7 fun _ s9 h9 hopen9 => ?_
  refine run_passive_bind revalidateAll_passive hopen9 fun _ s10 h10 hopen10 => ?_
  refine run_passive_bind (only_orElse_call rfl) hopen10 fun _ s11 h11 hopen11 => ?_
  have hfollows11 : Follows s7 s11 := (h9.follow h10).follow h11
  split
  · refine run_passive_bind (only_orStop_call rfl) hopen11 fun slug s12 h12 hopen12 => ?_
    refine run_bind (run_passive (only_orElse_call rfl) hopen12) fun _ s13 h13 => ?_
    exact run_pure (hdone _ ((hfollows11.follow h12).follow h13).stays)
  · exact run_pure (hdone _ hfollows11.stays)

/-- The old release runs again and was verified, in a container that is not `fresh`. -/
structure Restored (oldId : Uuid) (fresh : ContainerRecord) (s s' : State) : Prop where
  opened : Open s'
  row : (view s').record = (view s).record
  active : (view s').active = (view s).active
  pending : (view s').pending = (view s).pending
  pre : (view s').effects.rollbackPreContainerId = (view s).effects.rollbackPreContainerId
  shown : Shown (some oldId) s'.2
  proven : ∃ id, (view s').effects.rollbackPostContainerId = some id ∧ id ≠ fresh.id ∧
    Proven s' oldId id

theorem startOldRelease_run (hs : Open s) (hrow : (view s).record = record) {oldId : Uuid}
    {old : Release} {config : Config} (fresh : ContainerRecord) (hloaded : Loaded oldId old s.2)
    (hconfig : ConfigLoaded old.configRevision config s.2) :
    Run record a₀ p₀ (startOldRelease record oldId old config fresh) s
      fun _ s' => Restored oldId fresh s s' := by
  refine run_bind (run_tame (passive_tame context_passive) hs) fun _ s1 h1 => ?_
  refine run_stays composeRun_tame h1 hs fun started s2 hstays => ?_
  have hopen2 := hstays.open hs
  refine run_orElse_bind hopen2 fun _ _ => ?_
  refine run_bind (observeOwnedCandidate_run hopen2) fun container s4 h4 => ?_
  obtain ⟨hlist4, -, hother⟩ := h4
  have hopen4 := hlist4.open hopen2
  refine run_ensure_bind hopen4 fun _ => ?_
  refine run_bind (markRollbackObserved_run hopen4 _) fun _ s6 h6 => ?_
  obtain ⟨effects, hpost, hpre, hnoted⟩ := h6
  have hopen6 := hnoted.open hopen4
  refine run_passive_bind (only_orStop_call rfl) hopen6 fun _ s7 h7 hopen7 => ?_
  refine run_orElse_bind hopen7 fun identity hidentity => ?_
  refine run_bind (verifyHealth_run hopen7) fun health s9 h9 => ?_
  cases health with
  | error e => exact run_bind (run_orElse (h9.open hopen7)) fun _ _ h => nomatch h.2
  | ok verified =>
    obtain ⟨hgate, hpassed⟩ := h9
    have hopen9 := hgate.open hopen7
    refine run_orElse_bind hopen9 fun _ heq => ?_
    cases heq
    refine run_bind (observeOwnedCandidate_run hopen9) fun final s11 h11 => ?_
    obtain ⟨hlist, howned, -⟩ := h11
    have hopen11 := hlist.open hopen9
    refine run_ensure_bind hopen11 fun hfinal => ?_
    simp only [Bool.and_eq_true, decide_eq_true_eq] at hfinal
    refine run_mono (run_orElse hopen11) fun _ s13 h13 => ?_
    obtain ⟨rfl, hrecheck⟩ := h13
    have hview : view s9 = { view s2 with
        effects := effects
        listed := some [container]
        gated := some ⟨⟨container.id, oldId, old.runnableImageRef, identity⟩, config.health,
          verified⟩ } := by
      rw [hgate.1, h7.1, hnoted.1, hlist4.1]
    have hlog : s.2 <:+ s9.2 :=
      (((hstays.log.trans hlist4.2).trans hnoted.2).trans h7.2).trans hgate.2
    have hrow10 : (view s9).record = record := by
      rw [hview]
      exact (hstays.get View.record fun _ _ _ _ => rfl).trans hrow
    exact {
      opened := hopen11
      row := by rw [hlist.1, hrow, ← hrow10]
      active := by
        rw [hlist.1, hview]
        exact hstays.get View.active fun _ _ _ _ => rfl
      pending := by
        rw [hlist.1, hview]
        exact hstays.get View.pending fun _ _ _ _ => rfl
      pre := by
        rw [hlist.1, hview]
        refine hpre.trans ?_
        rw [hlist4.1]
        exact congrArg _ (hstays.get View.effects fun _ _ _ _ => rfl)
      shown := by
        refine ⟨[final], congrArg View.listed hlist.1, fun c hc => ?_⟩
        obtain rfl := List.mem_singleton.mp hc
        exact validateSyntacticIdentity_releaseId howned
      proven := by
        refine ⟨container.id, ?_, fun heq => hother (congrArg some heq.symm), ?_⟩
        · rw [hlist.1, hview]
          exact hpost
        · exact Proven.of_look (x := ⟨old, config, identity, verified, final⟩) hlist
            (by rw [hview]) hpassed (hloaded.mono hlog) (hconfig.mono hlog) hidentity
            (by rw [hrow10]; exact howned) hfinal.1 hfinal.2 hrecheck }

theorem recorded_view (status : Status) {ev : Step} (hev : view (s.1, ev :: s.2) = view s) :
    view ({ s.1 with phase := .terminal, status }, ev :: s.2) =
      { view s with opened := status.isOpen } := by
  rw [← hev]
  rfl

theorem rollBack_run (hs : Underway record (some oldId) s) :
    Run record a₀ p₀ (rollBack record oldId candidate release container code) s
      fun _ _ => True := by
  refine hs.tame (only_orStop_call (.inl rfl)) fun old s1 _ hs1 => ?_
  refine run_orElse_bind hs1.opened fun image _ => ?_
  refine hs1.tame (loadCredentialRef_only fun _ _ => .inl rfl) fun credential s3 _ hs3 => ?_
  refine hs3.tame ⟨.inl rfl, fun _ => trivial⟩ fun pulled s4 _ hs4 => ?_
  refine run_orElse_bind hs4.opened fun _ _ => ?_
  refine run_bind (markRollbackStarted_run hs4.opened) fun _ s6 h6 => ?_
  obtain ⟨effects, hpre, hnoted⟩ := h6
  have hs6 := hs4.noted hnoted
  refine run_bind (prepareRollback_run hs6) fun prepared s7 h7 => ?_
  obtain ⟨config, binds, fresh⟩ := prepared
  obtain ⟨hstays7, hpending, hloaded, hconfig, hfresh⟩ := h7
  have hs7 := hs6.stays hstays7
  refine hs7.tame stopCandidate_tame fun _ s8 h8 hs8 => ?_
  have hstays8 : Stays s6 s8 := hstays7.trans h8
  refine run_bind (startOldRelease_run hs8.opened hs8.row fresh (hloaded.mono h8.log)
    (hconfig.mono h8.log)) fun _ s9 h9 => ?_
  have hactive9 : (view s9).active = some oldId := h9.active.trans hs8.link
  have hpending9 : (view s9).pending = some candidate := by
    rw [h9.pending, hstays8.get View.pending fun _ _ _ _ => rfl]
    exact hpending
  have hpre9 : (view s9).effects.rollbackPreContainerId = some container.id := by
    rw [h9.pre, hstays8.get (·.effects.rollbackPreContainerId) fun _ _ _ _ => rfl, hnoted.1]
    exact hpre
  refine run_bind (removePendingIf_run h9.opened fun _ =>
    .inr (.inr (.inr ⟨oldId, hactive9, h9.shown⟩))) fun _ s10 h10 => ?_
  have hopen10 := h10.open h9.opened
  refine run_bind (run_passive ⟨rfl, fun _ => trivial⟩ hopen10) fun _ s11 h11 => ?_
  have hview : view s11 = { view s9 with pending := none } := by
    rw [h11.1, h10.1, hpending9]
    exact congrArg (fun p => { view s9 with pending := p }) (if_pos rfl)
  refine transition_run (h11.open hopen10) fun ev hev => ?_
  have hlast := recorded_view .rolledBack hev
  rw [hview] at hlast
  refine ⟨nofun, fun _ => ?_, nofun⟩
  obtain ⟨id, hpost, hne, hproven⟩ := h9.proven
  have hrecord9 : (view s9).record = record := h9.row.trans hs8.row
  refine ⟨oldId, container.id, id, ?_, ?_, ?_, ?_, ?_, ?_, ?_⟩
  · have hrecord := (congrArg View.record hlast).trans hrecord9
    exact (congrArg Record.fromReleaseId hrecord).trans hs.scheduled
  · exact (congrArg View.active hlast).trans hactive9
  · exact congrArg View.pending hlast
  · exact (congrArg (·.effects.rollbackPreContainerId) hlast).trans hpre9
  · exact (congrArg (·.effects.rollbackPostContainerId) hlast).trans hpost
  · exact hfresh ▸ hne
  · have hlog := (h10.2.trans h11.2).trans (List.suffix_cons ev s11.2)
    exact hproven.mono hlog (by rw [hlast]) (by rw [hlast]) (by rw [hlast]) (by rw [hlast])

theorem rollbackOrFail_run (hs : Underway record active s) :
    Run record a₀ p₀ (rollbackOrFail record active candidate container code) s fun _ _ => True := by
  refine hs.tame (only_orStop_call (.inl rfl)) fun release s1 _ hs1 => ?_
  refine hs1.tame (only_orStop_call (.inl rfl)) fun _ s2 _ hs2 => ?_
  cases active with
  | none => exact compensateFirstDeploy_run hs2.opened
  | some oldId => exact rollBack_run hs2

theorem restorePredecessor_run (hs : Open s) {predecessor : Option ContainerRecord}
    {binds : List BindIdentity} (hshown : Shown record.expectedActualReleaseId s.2) :
    Run record a₀ p₀ (restorePredecessor record predecessor binds) s fun _ s' =>
      Stays s s' ∧ Shown record.expectedActualReleaseId s'.2 := by
  have hsame : Stays s s ∧ Shown record.expectedActualReleaseId s.2 :=
    ⟨(Follows.refl s).stays, hshown⟩
  cases predecessor with
  | none => exact run_pure hsame
  | some predecessor =>
    unfold restorePredecessor
    dsimp only
    split
    · exact run_pure hsame
    · refine run_orStop_bind hs fun releaseId hexpected => ?_
      refine run_bind (run_tame (only_orStop_call (.inl rfl)) hs) fun release s2 h2 => ?_
      refine run_stays (only_orStop_call (.inl rfl)) h2 hs fun config s3 hstays3 => ?_
      refine run_stays (passive_tame validateRuntimePathsFresh_passive) hstays3 hs
        fun identities s4 hstays4 => ?_
      refine run_ensure_bind (hstays4.open hs) fun _ => ?_
      refine run_stays (passive_tame revalidateAll_passive) hstays4 hs fun _ s6 hstays6 => ?_
      refine run_stays (only_orElse_call (.inl rfl)) hstays6 hs fun _ s7 hstays7 => ?_
      refine run_stays (passive_tame context_passive) hstays7 hs fun target s8 hstays8 => ?_
      refine run_stays composeRun_tame hstays8 hs fun started s9 hstays9 => ?_
      refine run_orElse_bind (hstays9.open hs) fun _ _ => ?_
      refine run_bind (run_attempt (preflight_run (hstays9.open hs)))
        fun observed s11 h11 => ?_
      cases observed with
      | error e => exact run_bind (run_orElse h11) fun _ _ h => nomatch h.2
      | ok seen =>
        obtain ⟨cs, hlist, hcs⟩ := h11
        have hstays11 : Stays s s11 := hstays9.trans ⟨_, _, _, hlist⟩
        have hopen11 := hstays11.open hs
        refine run_orElse_bind hopen11 fun _ _ => ?_
        refine run_orStop_bind hopen11 fun _ _ => ?_
        refine run_mono (run_ensure hopen11) fun _ s14 h14 => ?_
        obtain ⟨rfl, -⟩ := h14
        refine ⟨hstays11, cs, congrArg View.listed hlist.1, fun c hc => ?_⟩
        rw [hexpected]
        exact hcs c hc

/-! ## The commit -/

theorem commitCandidate_run (hs : Underway record active s)
    {candidate : Candidate} {config : Config} {container verified : ContainerRecord}
    {identity : ImageIdentity} (hcandidate : (view s).candidate = some candidate.id)
    (hpost : (view s).effects.postContainerId = some container.id)
    (hloaded : Loaded candidate.id candidate.release s.2)
    (hconfig : ConfigLoaded candidate.release.configRevision config s.2)
    (hidentity : candidate.release.imageIdentity = .ok identity)
    (hgated : (view s).gated = some ⟨⟨container.id, candidate.id,
      candidate.release.runnableImageRef, identity⟩, config.health, verified⟩)
    (hpassed : Passed ⟨container.id, candidate.id, candidate.release.runnableImageRef, identity⟩
      config.health verified) : Run record a₀ p₀
      (commitCandidate record active candidate config container verified) s fun _ _ => True := by
  refine run_passive_bind (only_orStop_call rfl) hs.opened fun _ s1 h1 hopen1 => ?_
  refine run_passive_bind (only_orStop_call rfl) hopen1 fun _ s2 h2 hopen2 => ?_
  refine run_bind (verifyReleaseLinks_run hopen2) fun _ s3 h3 => ?_
  obtain ⟨hlinks, -, hpending⟩ := h3
  have hfollows : Follows s s3 := (h1.follow h2).follow hlinks
  have hopen3 := hfollows.open hs.opened
  refine run_bind (observeOwnedCandidate_run hopen3) fun final s4 h4 => ?_
  obtain ⟨hlist, howned, -⟩ := h4
  have hopen4 := hlist.open hopen3
  refine run_ensure_bind hopen4 fun hsame => ?_
  have hstays : Stays s s4 := hfollows.stays.trans ⟨_, _, _, hlist⟩
  dsimp only
  split
  next e hfinal => exact rollbackOrFail_run (hs.stays hstays)
  next hfinal =>
    have hmatch : candidateMatchesRelease final candidate.release = true := by
      by_cases hmatch : candidateMatchesRelease final candidate.release = true
      · exact hmatch
      · rw [if_pos (by simpa using hmatch)] at hfinal
        cases hfinal
    rw [if_neg (by simp [hmatch])] at hfinal
    have hproven : Proven s4 candidate.id container.id := by
      refine Proven.of_look (x := ⟨candidate.release, config, identity, verified, final⟩) hlist
        ?_ hpassed (hloaded.mono hfollows.2) (hconfig.mono hfollows.2) hidentity ?_
        (by simpa using hsame) hmatch hfinal
      · rw [hfollows.1]
        exact hgated
      · rw [hfollows.1, hs.row, ← hfollows.1]
        exact howned
    have hpending5 : (view s4).pending = some candidate.id := by
      rw [hlist.1, hlinks.1]
      exact hpending
    refine run_bind (finalizeActive_run hopen4) fun _ s6 h6 => ?_
    have hopen6 := h6.open hopen4
    refine run_bind (run_passive ⟨rfl, fun _ => trivial⟩ hopen6) fun _ s7 h7 => ?_
    refine transition_run (h7.open hopen6) fun ev hev => ?_
    have hlast := recorded_view .succeeded hev
    rw [h7.1, h6.1] at hlast
    refine ⟨fun _ => ⟨candidate.id, container.id, ?_, congrArg View.active hlast, ?_, ?_, ?_⟩,
      nofun, nofun⟩
    · have hrow := (congrArg View.candidate hlast).trans
        (hstays.get View.candidate fun _ _ _ _ => rfl)
      exact hrow.trans hcandidate
    · refine (congrArg View.pending hlast).trans ?_
      rw [hpending5]
      exact if_pos rfl
    · have heffects := (congrArg (·.effects.postContainerId) hlast).trans
        (hstays.get (·.effects.postContainerId) fun _ _ _ _ => rfl)
      exact heffects.trans hpost
    · have hlog := (h6.2.trans h7.2).trans (List.suffix_cons ev s7.2)
      exact hproven.mono hlog (by rw [hlast]) (by rw [hlast]) (by rw [hlast]) (by rw [hlast])

theorem verifyCandidate_run (hs : Underway record active s)
    {candidate : Candidate} {prepared : Prepared}
    (hcandidate : (view s).candidate = some candidate.id)
    (hloaded : Loaded candidate.id candidate.release s.2)
    (hconfig : ConfigLoaded candidate.release.configRevision prepared.config s.2) :
    Run record a₀ p₀ (verifyCandidate record active candidate prepared) s fun _ _ => True := by
  refine run_bind (observeOwnedCandidate_run hs.opened) fun container s1 h1 => ?_
  have hstays1 : Stays s s1 := ⟨_, _, _, h1.1⟩
  have hs1 := hs.stays hstays1
  refine run_bind (markEffectObserved_run hs1.opened) fun _ s2 h2 => ?_
  obtain ⟨effects, hpost, hnoted⟩ := h2
  have hs2 := hs1.noted hnoted
  split
  · exact rollbackOrFail_run hs2
  · refine run_bind (run_passive (only_orStop_call rfl) hs2.opened) fun _ s3 h3 => ?_
    have hs3 := hs2.stays h3.stays
    refine run_orElse_bind hs3.opened fun identity hidentity => ?_
    refine run_bind (verifyHealth_run hs3.opened) fun health s5 h5 => ?_
    have hlog4 : s.2 <:+ s3.2 := (hstays1.log.trans hnoted.2).trans h3.2
    cases health with
    | ok verified =>
      obtain ⟨hgate, hpassed⟩ := h5
      have hs5 : Underway record active s5 := hs3.stays ⟨_, _, _, hgate⟩
      have hview : view s5 = { view s1 with
          effects := effects
          gated := some ⟨⟨container.id, candidate.id, candidate.release.runnableImageRef,
            identity⟩, prepared.config.health, verified⟩ } := by
        rw [hgate.1, h3.1, hnoted.1]
      refine commitCandidate_run hs5 ?_ ?_ (hloaded.mono (hlog4.trans hgate.2))
        (hconfig.mono (hlog4.trans hgate.2)) hidentity ?_ hpassed
      · rw [hview]
        exact (hstays1.get View.candidate fun _ _ _ _ => rfl).trans hcandidate
      · rw [hview]
        exact hpost
      · rw [hview]
    | error e =>
      have hs5 := hs3.stays h5.stays
      cases e with
      | interrupted | observation | changed => exact run_stop hs5.opened
      | _ => exact rollbackOrFail_run hs5

/-! ## The apply -/

theorem handleFailedApply_run (hs : Underway record active s)
    {candidate : Candidate} {prepared : Prepared} {error : ComposeError}
    (hrefused : error.isValidation = true → Refused candidate.id s.2) :
    Run record a₀ p₀ (handleFailedApply record active candidate prepared error) s
      fun _ _ => True := by
  unfold handleFailedApply
  split
  · exact run_stop hs.opened
  · refine run_bind (observeFailedApply_run hs.opened) fun seen s1 h1 => ?_
    obtain ⟨cs, hlist, hseen⟩ := h1
    have hstays1 : Stays s s1 := ⟨_, _, _, hlist⟩
    have hs1 := hs.stays hstays1
    cases seen with
    | candidate container =>
      refine run_bind (markEffectObserved_run hs1.opened) fun _ s2 h2 => ?_
      obtain ⟨effects, -, hnoted⟩ := h2
      exact rollbackOrFail_run (hs1.noted hnoted)
    | noEffect =>
      have hshown : Shown record.expectedActualReleaseId s1.2 :=
        ⟨cs, congrArg View.listed hlist.1, hseen⟩
      refine run_bind (restorePredecessor_run hs1.opened hshown) fun _ s2 h2 => ?_
      obtain ⟨hstays2, hshown2⟩ := h2
      have hs2 := hs1.stays hstays2
      split
      next hvalid =>
        have hrefused2 := (hrefused hvalid).mono (hstays1.trans hstays2).log
        refine run_bind (removePendingIf_run hs2.opened fun _ =>
          .inr (.inl ⟨hrefused2, hshown2⟩)) ?_
        exact fun _ s3 h3 => run_stop (h3.open hs2.opened)
      · exact run_stop hs2.opened

theorem prepareEffects_run (hs : Underway record active s) (candidate : Candidate) :
    Run record a₀ p₀ (prepareEffects record active candidate) s fun prepared s' =>
      Underway record active s' ∧ (view s').candidate = (view s).candidate ∧
        Loaded candidate.id candidate.release s'.2 ∧
        ConfigLoaded candidate.release.configRevision prepared.config s'.2 := by
  refine hs.tame (only_orStop_call (.inl rfl)) fun _ s1 h1 hs1 => ?_
  refine hs1.tame (preflight_observes.mono Observes.tame) fun predecessor s2 h2 hs2 => ?_
  refine run_bind (markEffectStarted_run hs2.opened) fun _ s3 h3 => ?_
  obtain ⟨effects, hnoted⟩ := h3
  have hs3 := hs2.noted hnoted
  have hcandidate3 : (view s3).candidate = (view s).candidate := by
    rw [hnoted.1]
    exact (h1.trans h2).get View.candidate fun _ _ _ _ => rfl
  refine run_bind (verifyReleaseLinks_run hs3.opened) fun _ s4 h4 => ?_
  have hs4 := hs3.stays h4.1.stays
  refine run_bind (reloadCandidate_run hs4.opened) fun config s5 h5 => ?_
  obtain ⟨hfollows5, hloaded, hconfig⟩ := h5
  have hs5 := hs4.stays hfollows5.stays
  -- from here on only checks
  have hdone : ∀ s', Stays s5 s' → Underway record active s' ∧
      (view s').candidate = (view s).candidate ∧ Loaded candidate.id candidate.release s'.2 ∧
      ConfigLoaded candidate.release.configRevision config s'.2 := by
    intro s' h
    refine ⟨hs5.stays h, ?_, hloaded.mono h.log, hconfig.mono h.log⟩
    have hstays : Stays s3 s' := (h4.1.follow hfollows5).stays.trans h
    exact (hstays.get View.candidate fun _ _ _ _ => rfl).trans hcandidate3
  refine run_bind (run_tame (passive_tame validateRuntimePathsFresh_passive) hs5.opened)
    fun binds s6 h6 => ?_
  refine run_stays (only_orElse_call (.inl rfl)) h6 hs5.opened fun _ s7 hstays7 => ?_
  refine run_stays (preflight_observes.mono Observes.tame) hstays7 hs5.opened
    fun finalPredecessor s8 hstays8 => ?_
  refine run_ensure_bind (hstays8.open hs5.opened) fun _ => ?_
  refine run_stays (only_orElse_call (.inl rfl)) hstays8 hs5.opened fun _ s10 hstays10 => ?_
  refine run_stays (passive_tame revalidateAll_passive) hstays10 hs5.opened
    fun _ s11 hstays11 => ?_
  refine run_stays (passive_tame checkNetwork_passive) hstays11 hs5.opened
    fun _ s12 hstays12 => ?_
  refine run_bind (run_tame (passive_tame loadPredecessorBinds_passive) (hstays12.open hs5.opened))
    fun predecessorBinds s13 h13 => ?_
  exact run_pure (hdone _ (hstays12.trans h13))

/-! ## The pull -/

/-- The pending link names the candidate; `s'` has it, and nothing else has changed. -/
theorem publishPending_run (hs : Underway record active s)
    (hcandidate : IsCandidate record candidate s.2) :
    Run record a₀ p₀ (publishPending candidate) s fun _ s' =>
      Underway record active s' ∧ (view s').candidate = (view s).candidate := by
  refine run_bind (readReleaseLink_run hs.opened) fun pendingBefore s1 h1 => ?_
  obtain ⟨hfollows, rfl⟩ := h1
  have hs1 := hs.stays hfollows.stays
  have hcandidate1 : (view s1).candidate = (view s).candidate := by rw [hfollows.1]
  dsimp only
  split
  next hnew =>
    have hnew1 : (view s1).pending ≠ some candidate := by
      rw [hfollows.1]
      exact hnew
    have hcandidate' : IsCandidate record candidate s1.2 := by
      refine hcandidate.imp_right (Or.imp_right fun h => ⟨h.1, h.2.1, ?_⟩)
      obtain ⟨cs, hlisted, hcs⟩ := h.2.2
      exact ⟨cs, (congrArg View.listed hfollows.1).trans hlisted, hcs⟩
    refine run_mono (setPending_run hs1.opened hnew1 hcandidate') fun _ s2 h2 => ?_
    refine ⟨⟨h2.open hs1.opened, ?_, ?_, hs.scheduled⟩, ?_⟩
    · rw [h2.1]
      exact hs1.row
    · rw [h2.1]
      exact hs1.link
    · rw [h2.1]
      exact hcandidate1
  · exact run_pure ⟨hs1, hcandidate1⟩

/-- A failed pull lets go of the link only if nothing was pending before the run. -/
theorem pullFailed_run (hs : Open s) {e : PullError} :
    Run record a₀ p₀ (pullFailed record candidate e) s fun _ _ => False := by
  unfold pullFailed
  split
  · exact run_stop hs
  · exact run_stop hs
  · exact run_stop hs
  · split
    next hnone =>
      have hnone : record.expectedPendingReleaseId = none := Option.isNone_iff_eq_none.mp hnone
      refine run_bind (removePendingIf_run hs fun _ => .inl hnone) fun _ s1 h1 => ?_
      exact run_stop (h1.open hs)
    · exact run_stop hs

theorem pullCandidate_run (hs : Underway record active s)
    {candidate : Candidate} (hcandidate : IsCandidate record candidate.id s.2) :
    Run record a₀ p₀ (pullCandidate record candidate) s fun _ s' =>
      Underway record active s' ∧ (view s').candidate = (view s).candidate := by
  refine run_bind (publishPending_run hs hcandidate) fun _ s1 h1 => ?_
  obtain ⟨hs1, hcandidate1⟩ := h1
  refine hs1.tame ⟨.inl rfl, fun _ => trivial⟩ fun _ s2 h2 hs2 => ?_
  refine hs2.tame (only_orStop_call (.inl rfl)) fun _ s3 h3 hs3 => ?_
  refine run_orElse_bind hs3.opened fun image _ => ?_
  refine hs3.tame (loadCredentialRef_only fun _ _ => .inl rfl) fun credential s5 h5 hs5 => ?_
  refine hs5.tame ⟨.inl rfl, fun _ => trivial⟩ fun pulled s6 h6 hs6 => ?_
  cases pulled with
  | ok _ =>
    have hstays : Stays s1 s6 := ((h2.trans h3).trans h5).trans h6
    have hsame := hstays.get View.candidate fun _ _ _ _ => rfl
    exact run_pure ⟨hs6, hsame.trans hcandidate1⟩
  | error e => exact run_mono (pullFailed_run hs6.opened) fun _ _ h => h.elim

theorem context_run (hs : Open s) {release : Uuid} :
    Run record a₀ p₀ (context release) s fun r s' => Follows s s' ∧ r = release := by
  refine run_bind (readMetadata_run hs) fun _ s1 h1 => ?_
  refine run_bind (loadV2Release_run (h1.1.open hs)) fun _ s2 h2 => ?_
  exact run_pure ⟨h1.1.follow h2.1, rfl⟩

theorem applyCandidate_run (hs : Underway record active s)
    {candidate : Candidate} (hcandidate : (view s).candidate = some candidate.id)
    (his : IsCandidate record candidate.id s.2) :
    Run record a₀ p₀ (applyCandidate record active candidate) s fun _ _ => True := by
  refine run_bind (pullCandidate_run hs his) fun _ s1 h1 => ?_
  obtain ⟨hs1, hcandidate1⟩ := h1
  refine run_bind (prepareEffects_run hs1 candidate) fun prepared s2 h2 => ?_
  obtain ⟨hs2, hcandidate2, hloaded, hconfig⟩ := h2
  refine hs2.tame stopPredecessor_tame fun _ s3 h3 hs3 => ?_
  refine hs3.tame (passive_tame recheckBinds_passive) fun _ s4 h4 hs4 => ?_
  have hstays4 : Stays s2 s4 := h3.trans h4
  refine run_bind (context_run hs4.opened) fun release s5 h5 => ?_
  obtain ⟨hfollows5, rfl⟩ := h5
  have hs5 := hs4.stays hfollows5.stays
  refine run_bind (composeRun_run hs5.opened) fun result s6 h6 => ?_
  obtain ⟨hcompose, hrefused⟩ := h6
  have hs6 : Underway record active s6 := hs5.stays ⟨_, _, _, hcompose⟩
  have hstays6 : Stays s2 s6 :=
    (hstays4.trans hfollows5.stays).trans ⟨_, _, _, hcompose⟩
  cases result with
  | error e => exact handleFailedApply_run hs6 fun hvalid => hrefused e rfl rfl hvalid
  | ok _ =>
    have hsame := hstays6.get View.candidate fun _ _ _ _ => rfl
    exact verifyCandidate_run hs6 (hsame.trans (hcandidate2.trans (hcandidate1.trans hcandidate)))
      (hloaded.mono hstays6.log) (hconfig.mono hstays6.log)

/-! ## The candidate -/

/-- What is known when the candidate is resolved. -/
structure Resolving (record : Record) (a₀ p₀ active : Option Uuid) (s : State) :
    Prop where
  underway : Underway record active s
  first : (view s).active = a₀ ∧ (view s).pending = p₀
  pending : p₀ = record.expectedPendingReleaseId
  idle : (view s).composed = false
  shown : Shown record.expectedActualReleaseId s.2

/-- The row names the candidate, which is one of the run. -/
structure Chosen (record : Record) (active : Option Uuid) (candidate : Candidate) (s : State) :
    Prop where
  underway : Underway record active s
  row : (view s).candidate = some candidate.id
  candidate : IsCandidate record candidate.id s.2

variable {id : Uuid}

theorem IsCandidate.mono (h : IsCandidate record id s.2)
    (hlisted : (view s').listed = (view s).listed) : IsCandidate record id s'.2 := by
  refine h.imp_right (Or.imp_right fun h => ⟨h.1, h.2.1, ?_⟩)
  obtain ⟨cs, hcs⟩ := h.2.2
  exact ⟨cs, hlisted.trans hcs.1, hcs.2⟩

theorem Resolving.follow (h : Resolving record a₀ p₀ active s)
    (hfollows : Follows s s') : Resolving record a₀ p₀ active s' where
  underway := h.underway.stays hfollows.stays
  first := by
    rw [hfollows.1]
    exact h.first
  pending := h.pending
  idle := by
    rw [hfollows.1]
    exact h.idle
  shown := by
    obtain ⟨cs, hcs⟩ := h.shown
    exact ⟨cs, (congrArg View.listed hfollows.1).trans hcs.1, hcs.2⟩

theorem Resolving.look (h : Resolving record a₀ p₀ active s)
    {cs : List ContainerRecord} (hlist : Becomes s { view s with listed := some cs } s')
    (hcs : ∀ c ∈ cs, c.releaseId = record.expectedActualReleaseId) :
    Resolving record a₀ p₀ active s' where
  underway := h.underway.stays ⟨_, _, _, hlist⟩
  first := by
    rw [hlist.1]
    exact h.first
  pending := h.pending
  idle := by
    rw [hlist.1]
    exact h.idle
  shown := ⟨cs, congrArg View.listed hlist.1, hcs⟩

/-- As `Run`, where the run may also have been ended: only the no-op does that. -/
def RunOrEnd (record : Record) (a₀ p₀ : Option Uuid) (p : EngineProg α) (s : State)
    (I : α → State → Prop) : Prop :=
  engineWorld.wp (fun _ _ _ => True) (Law record a₀ p₀) p
    (fun r s' => match r with
      | .ok a => I a s'
      | .error e => e = .alreadyTerminal ∨ Open s') s

theorem Run.orEnd (h : Run record a₀ p₀ p s I) : RunOrEnd record a₀ p₀ p s I := by
  refine World.wp_mono h fun r s' hr => ?_
  cases r with
  | ok a => exact hr
  | error err => exact .inr hr

theorem runOrEnd_bind (hp : RunOrEnd record a₀ p₀ p s I)
    (hk : ∀ a s', I a s' → RunOrEnd record a₀ p₀ (k a) s' J) :
    RunOrEnd record a₀ p₀ (p >>= k) s J :=
  World.wp_part hp (fun a s' h => hk a s' h) fun _ _ h => h

section Resolve

variable {active : Option Uuid}

theorem noOpRuntimeConverged_run (hs : Resolving record a₀ p₀ active s) {activeId : Uuid} :
    Run record a₀ p₀ (noOpRuntimeConverged record activeId release) s fun _ s' =>
      Resolving record a₀ p₀ active s' := by
  unfold noOpRuntimeConverged
  split
  · exact run_pure hs
  · refine run_bind (preflight_run hs.underway.opened) fun seen s1 h1 => ?_
    obtain ⟨cs, hlist, hcs⟩ := h1
    have hs1 := hs.look hlist hcs
    cases seen with
    | none => exact run_pure hs1
    | some container =>
      dsimp only
      split
      · exact run_pure hs1
      · refine run_bind (run_passive (only_orStop_call rfl) hs1.underway.opened)
          fun config s2 h2 => ?_
        exact run_pure (hs1.follow h2)

theorem View.relink {v : View} (hactive : v.active = some id)
    (hpending : v.pending = none) :
    { v with active := some id, pending := unlinkIf id v.pending } = v := by
  cases v
  cases hactive
  cases hpending
  rfl

section

variable (hs : Resolving record a₀ p₀ active s)

include hs

theorem noOp_run : RunOrEnd record a₀ p₀ (do
      transition .terminal .noOp "no_op" none
      stop .alreadyTerminal) s I := by
  refine runOrEnd_bind (transition_run hs.underway.opened fun ev hev => ?_).orEnd
    fun _ _ _ => .inl rfl
  have hlast := recorded_view .noOp hev
  refine ⟨nofun, nofun, fun _ => ⟨?_, ?_, ?_⟩⟩
  · exact (congrArg View.composed hlast).trans hs.idle
  · exact (congrArg View.active hlast).trans hs.first.1
  · exact (congrArg View.pending hlast).trans hs.first.2

variable {metadata : AppMetadata} {image : ResolvedImage}

theorem manualNoOp_run :
    RunOrEnd record a₀ p₀ (manualNoOp record metadata active image) s fun _ s' =>
      Resolving record a₀ p₀ active s' := by
  cases active with
  | none => exact hs
  | some activeId =>
    refine runOrEnd_bind (run_passive (p := tryLoadV2Release activeId) ⟨rfl, fun _ => trivial⟩
      hs.underway.opened).orEnd fun loaded s1 h1 => ?_
    have hs1 := hs.follow h1
    cases loaded with
    | none => exact hs1
    | some old =>
      dsimp only
      split
      next hsame =>
        refine runOrEnd_bind (noOpRuntimeConverged_run hs1).orEnd fun converged s2 hs2 => ?_
        split
        · refine runOrEnd_bind
            (run_passive (only_orStop_call rfl) hs2.underway.opened).orEnd fun config s3 h3 => ?_
          have hs3 := hs2.follow h3
          refine runOrEnd_bind (finalizeActive_run hs3.underway.opened).orEnd
            fun _ s4 h4 => ?_
          -- the release is active already, and nothing is pending
          have hpending : (view s3).pending = none :=
            hs3.first.2.trans (hs3.pending.trans hsame.2.2.2)
          have hview : view s4 = view s3 := by
            rw [h4.1]
            exact View.relink hs3.underway.link hpending
          exact noOp_run (hs3.follow ⟨hview, h4.2⟩)
        · exact hs2
      · exact hs1

theorem pollNoOp_run : RunOrEnd record a₀ p₀ (pollNoOp record metadata active image) s fun _ s' =>
      Resolving record a₀ p₀ active s' := by
  cases active with
  | none => exact hs
  | some activeId =>
    refine runOrEnd_bind (run_passive (p := tryLoadV2Release activeId) ⟨rfl, fun _ => trivial⟩
      hs.underway.opened).orEnd fun loaded s1 h1 => ?_
    have hs1 := hs.follow h1
    cases loaded with
    | none => exact hs1
    | some old =>
      dsimp only
      split
      · refine runOrEnd_bind (run_ensure hs1.underway.opened).orEnd fun _ s2 h2 => ?_
        obtain ⟨rfl, -⟩ := h2
        split
        · refine runOrEnd_bind (noOpRuntimeConverged_run hs1).orEnd fun converged s3 hs3 => ?_
          split
          · exact noOp_run hs3
          · exact hs3
        · exact hs1
      · exact hs1

theorem resumeRelease_run (hcandidate : IsCandidate record id s.2) {predecessor : Option Uuid}
    {result : String} : Run record a₀ p₀ (resumeRelease predecessor release id result) s
      (Chosen record active) := by
  refine run_bind (resolvedRow_run hs.underway.opened) fun _ s1 h1 => ?_
  have hopen1 := h1.open hs.underway.opened
  refine run_bind (run_passive (only_orStop_call rfl) hopen1) fun _ s2 h2 => ?_
  have hview : view s2 = { view s with candidate := some id } := h2.1.trans h1.1
  refine run_pure ⟨⟨h2.open hopen1, ?_, ?_, hs.underway.scheduled⟩, ?_, ?_⟩
  · rw [hview]
    exact hs.underway.row
  · rw [hview]
    exact hs.underway.link
  · rw [hview]
  · exact hcandidate.mono (by rw [hview])

theorem publishCandidate_run (hnone : record.expectedPendingReleaseId = none)
    {trigger : Trigger} {result : String} :
    Run record a₀ p₀ (publishCandidate metadata active image trigger result) s
      (Chosen record active) := by
  refine run_bind (run_passive (p := newUuid) ⟨rfl, fun _ => trivial⟩ hs.underway.opened)
    fun candidateId s1 h1 => ?_
  have hs1 := hs.follow h1
  refine run_bind (resolvedRow_run hs1.underway.opened) fun _ s2 h2 => ?_
  have hopen2 := h2.open hs1.underway.opened
  refine run_passive_bind (only_orStop_call rfl) hopen2 fun _ s3 h3 hopen3 => ?_
  refine run_bind (run_passive (only_orStop_call rfl) hopen3) fun release s4 h4 => ?_
  have hview : view s4 = { view s1 with candidate := some candidateId } :=
    h4.1.trans (h3.1.trans h2.1)
  refine run_pure ⟨⟨h4.open hopen3, ?_, ?_, hs.underway.scheduled⟩, ?_, .inl hnone⟩
  · rw [hview]
    exact hs1.underway.row
  · rw [hview]
    exact hs1.underway.link
  · rw [hview]

theorem resumePending_run {pending : Uuid}
    (hpending : record.expectedPendingReleaseId = some pending) :
    Run record a₀ p₀ (resumePending record pending) s (Chosen record active) := by
  refine run_bind (run_passive (only_orStop_call rfl) hs.underway.opened) fun release s1 h1 => ?_
  have hs1 := hs.follow h1
  refine run_ensure_bind hs1.underway.opened fun _ => ?_
  exact resumeRelease_run hs1 (.inr (.inl hpending))

theorem resumePollPending_run {pending : Uuid}
    (hpending : record.expectedPendingReleaseId = some pending) :
    Run record a₀ p₀ (resumePollPending record pending) s (Chosen record active) := by
  refine run_bind (resumePending_run hs hpending) fun candidate s1 h1 => ?_
  refine run_ensure_bind h1.underway.opened fun _ => ?_
  exact run_pure h1

theorem resolveRollback_run (htrigger : record.trigger = .rollback) :
    Run record a₀ p₀ (resolveRollback record active) s (Chosen record active) := by
  refine run_orStop_bind hs.underway.opened fun target htarget => ?_
  refine run_bind (run_passive (only_orStop_call rfl) hs.underway.opened) fun release s2 h2 => ?_
  have hs2 := hs.follow h2
  exact resumeRelease_run hs2 (.inr (.inr ⟨htrigger, htarget, hs2.shown⟩))

theorem resolveManual_run
    (hnone : record.expectedPendingReleaseId = none) (metadata : AppMetadata) :
    RunOrEnd record a₀ p₀ (resolveManual record metadata active) s (Chosen record active) := by
  refine runOrEnd_bind (run_orStop hs.underway.opened).orEnd fun reference s1 h1 => ?_
  obtain ⟨rfl, -⟩ := h1
  refine runOrEnd_bind (run_orElse hs.underway.opened).orEnd fun image s2 h2 => ?_
  obtain ⟨rfl, -⟩ := h2
  refine runOrEnd_bind (run_passive (only_orElse_call rfl) hs.underway.opened).orEnd
    fun snapshot s3 h3 => ?_
  have hs3 := hs.follow h3
  refine runOrEnd_bind (run_orStop hs3.underway.opened).orEnd fun os s4 h4 => ?_
  obtain ⟨rfl, -⟩ := h4
  refine runOrEnd_bind (run_orStop hs3.underway.opened).orEnd fun architecture s5 h5 => ?_
  obtain ⟨rfl, -⟩ := h5
  refine runOrEnd_bind (run_orElse hs3.underway.opened).orEnd fun platform s6 h6 => ?_
  obtain ⟨rfl, -⟩ := h6
  refine runOrEnd_bind (run_passive (loadCredentialRef_only fun _ _ => rfl)
    hs3.underway.opened).orEnd
    fun credential s7 h7 => ?_
  have hs7 := hs3.follow h7
  refine runOrEnd_bind (run_passive (only_orElse_call rfl) hs7.underway.opened).orEnd
    fun resolved s8 h8 => ?_
  have hs8 := hs7.follow h8
  refine runOrEnd_bind (manualNoOp_run hs8) fun _ s9 hs9 => ?_
  exact (publishCandidate_run hs9 hnone).orEnd

theorem resolvePoll_run (hnone : record.expectedPendingReleaseId = none) (metadata : AppMetadata) :
    RunOrEnd record a₀ p₀ (resolvePoll record metadata active) s (Chosen record active) := by
  refine runOrEnd_bind (run_passive (pollTarget_only _ _) hs.underway.opened).orEnd
    fun image s1 h1 => ?_
  refine runOrEnd_bind (pollNoOp_run (hs.follow h1)) fun _ s2 hs2 => ?_
  exact (publishCandidate_run hs2 hnone).orEnd

theorem resolveCandidate_run (metadata : AppMetadata) :
    RunOrEnd record a₀ p₀ (resolveCandidate record metadata active) s (Chosen record active) := by
  unfold resolveCandidate
  split
  next _ hpending => exact (resumePending_run hs hpending).orEnd
  next _ hnone => exact resolveManual_run hs hnone metadata
  next htrigger => exact (resolveRollback_run hs htrigger).orEnd
  next _ hpending => exact (resumePollPending_run hs hpending).orEnd
  next _ hnone => exact resolvePoll_run hs hnone metadata

end

end Resolve

/-! ## The run -/

theorem ledgerGet_run (hs : Open s) {err : EngineError} :
    Run record a₀ p₀ (ledgerGet err) s fun row s' => Follows s s' ∧ row = (view s).record := by
  refine run_call fun ok answer w hact => ?_
  cases ok with
  | false =>
    cases hact
    exact ⟨hs, rfl, hs⟩
  | true =>
    cases hact
    exact ⟨hs, rfl, ⟨view_cons rfl rfl rfl, List.suffix_cons _ _⟩, rfl⟩

theorem run_run (hs : Open s) (hrow : (view s).record = record)
    (hactive : (view s).active = a₀) (hpending : (view s).pending = p₀)
    (hidle : (view s).composed = false) : Run record a₀ p₀ run s fun _ _ => True := by
  refine run_bind (ledgerGet_run hs) fun row s1 h1 => ?_
  obtain ⟨hfollows1, rfl⟩ := h1
  have hopen1 := hfollows1.open hs
  rw [hrow]
  refine run_passive_bind (only_orStop_call rfl) hopen1 fun _ s2 h2 hopen2 => ?_
  refine run_bind (run_passive (only_orStop_call rfl) hopen2) fun metadata s3 h3 => ?_
  have hfollows3 : Follows s s3 := (hfollows1.follow h2).follow h3
  have hopen3 := hfollows3.open hs
  refine run_ensure_bind hopen3 fun _ => ?_
  refine run_bind (readReleaseLink_run hopen3) fun active s5 h5 => ?_
  obtain ⟨hread5, rfl⟩ := h5
  have hopen5 := hread5.open hopen3
  refine run_bind (readReleaseLink_run hopen5) fun pending s6 h6 => ?_
  obtain ⟨hread6, rfl⟩ := h6
  have hfollows6 : Follows s s6 := (hfollows3.follow hread5).follow hread6
  have hopen6 := hfollows6.open hs
  refine run_ensure_bind hopen6 fun hfacts => ?_
  refine run_bind (preflight_run hopen6) fun _ s8 h8 => ?_
  obtain ⟨cs, hlist, hcs⟩ := h8
  simp only [Bool.and_eq_true, decide_eq_true_eq] at hfacts
  have hview : view s8 = { view s with listed := some cs } := by rw [hlist.1, hfollows6.1]
  have hactive4 : (view s3).active = a₀ := by rw [hfollows3.1, hactive]
  have hpending5 : (view s5).pending = p₀ := by rw [hread5.1, hfollows3.1, hpending]
  have hs8 : Resolving record a₀ p₀ (view s3).active s8 := {
    underway := {
      opened := hlist.open hopen6
      row := by rw [hview, hrow]
      link := by rw [hview, hactive4, hactive]
      scheduled := hfacts.1.symm }
    first := by rw [hview]; exact ⟨hactive, hpending⟩
    pending := by rw [← hpending5]; exact hfacts.2
    idle := by rw [hview]; exact hidle
    shown := ⟨cs, congrArg View.listed hview, hcs⟩ }
  refine World.wp_attempt_bind (resolveCandidate_run hs8 metadata) fun r s9 h9 => ?_
  cases r with
  | ok candidate => exact applyCandidate_run h9.underway h9.row h9.candidate
  | error e =>
    cases e with
    | alreadyTerminal => exact run_pure trivial
    | _ =>
      refine run_stop (h9.resolve_left ?_)
      exact fun h => nomatch h

theorem recordError_run (hs : Open s) {status : Status}
    (hstatus : status ≠ .succeeded ∧ status ≠ .rolledBack ∧ status ≠ .noOp) : Run record a₀ p₀ (do
      refresh
      let _recorded : Option Unit ←
        .call (.transition .terminal status "failed" (some code)) .done
      return ()) s fun _ _ => True := by
  refine run_bind (run_passive (p := refresh) ⟨rfl, fun _ => trivial⟩ hs) fun _ s1 h1 => ?_
  refine run_step fun ok answer w hact => ⟨?_, trivial⟩
  unfold act at hact
  dsimp only at hact
  split at hact <;> cases hact
  · exact ⟨.inl rfl, fun h => absurd h hstatus.1, fun h => absurd h hstatus.2.1,
      fun h => absurd h hstatus.2.2⟩
  · exact law_of_open (h1.open hs) rfl

theorem spawn_run (hs : Open s) (hrow : (view s).record = record)
    (hactive : (view s).active = a₀) (hpending : (view s).pending = p₀)
    (hidle : (view s).composed = false) : Run record a₀ p₀ spawn s fun _ _ => True := by
  refine World.wp_attempt_bind (run_run hs hrow hactive hpending hidle) fun r s1 h1 => ?_
  cases r with
  | ok _ => exact run_pure trivial
  | error e => cases e <;> exact recordError_run h1 ⟨nofun, nofun, nofun⟩

/-! ## Every state of a run -/

/-- However early a run is cut off, its log obeys the law of the links. -/
theorem law_cut (start : Machine) (hstart : start.status.isOpen = true) (o : deployWorld.Script)
    (k : Nat) : Law start.record start.active start.pending
      (engineWorld.cut o 0 k spawn (start, [])) := by
  have hrun : Run start.record start.active start.pending spawn (start, []) fun _ _ => True :=
    spawn_run hstart rfl rfl rfl rfl
  refine World.wp_cut (H := engineWorld) o 0 k ⟨trivial, meaning_of_open hstart⟩ hrun ?_
  exact World.meetsCut_true _ _ _ _ _ _

end Runs

end SoloDock.Deploy
