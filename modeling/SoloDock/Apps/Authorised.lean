import SoloDock.Apps.Bound

/-!
# No deletion goes beyond its preview

The proof that the account of a deletion stays in order, stage by stage from the end of
`delete_app` to its beginning: `Ready` is what the move of the directory rests on,
`Removing` what the removal of the container rests on, `Located` what is known once the
row of the preview has been read. Every other call leaves a stage as it is (`Calm`,
`Quiet`).
-/

namespace SoloDock.Apps

open Lib Mutation Lib.World Lib.Prog

/-! ## One attempt -/

variable {ε α : Type} {caller : Option Caller} {p : Prog Call Answer ε α}

theorem lifted_discard {Q : Except Empty Unit → Site → Prop}
    {G : Site → (e : Asked) → Pick e → Prop} {C : Site → Prop} {w : Site}
    (h : siteWorld.wp G C (lifted caller p) (fun _ => Q (.ok ())) w) :
    siteWorld.wp G C (lifted caller (discard p)) Q w := by
  induction p generalizing w with
  | done a => exact h
  | fail err => exact h
  | call e k ih => exact fun c hc => ⟨(h c hc).1, ih _ (h c hc).2⟩

theorem lifted_only {F : Call → Prop} (hp : p.Only F) :
    (lifted caller p).Only fun | .call who e => who = caller ∧ F e | _ => False := by
  induction p with
  | done a => trivial
  | fail err => trivial
  | call e k ih => exact ⟨⟨rfl, hp.1⟩, fun r => ih r (hp.2 r)⟩

/-- The preview that a deletion was confirmed with: it fits the request. -/
structure Confirms (caller : Caller) (p : Preview) : Prop where
  token : p.token = caller.deletion.token
  app : p.app = caller.deletion.app
  session : p.session = caller.session
  remove : p.removeContainer = caller.deletion.removeContainer
  ids : p.facts.containerIds = p.containerIds

/-- The invariant, with the row of this preview in the table. -/
structure Holding (p : Preview) (w : Site) : Prop where
  bound : Bound w
  row : ∃ b, { p with consumed := b } ∈ w.apps.previews

/-- The token is this operation's, and the containers to be removed are. -/
structure Ready (caller : Caller) (p : Preview) (w : Site) : Prop where
  holding : Holding p w
  spent : SpentBy w.deeds caller.operation p
  removed : caller.deletion.removeContainer = true →
    RemovedBy w.deeds caller.operation p.app p.facts.containerIds

variable {caller : Caller} {p : Preview}

namespace Calm

variable {w w' : Site} (hq : Calm caller w w')

include hq

theorem bound (h : Bound w) : Bound w' := h.congr hq.previews hq.deeds

theorem holding (h : Holding p w) : Holding p w' :=
  ⟨hq.bound h.bound, by rw [hq.previews]; exact h.row⟩

theorem ready (h : Ready caller p w) : Ready caller p w' :=
  ⟨hq.holding h.holding, by rw [hq.deeds]; exact h.spent, by rw [hq.deeds]; exact h.removed⟩

end Calm

theorem Holding.deed {w w' : Site} {effect : Effect}
    (hconfirms : Confirms caller p) (h : Holding p w)
    (hpreviews : w'.apps.previews = w.apps.previews)
    (hdeeds : w'.deeds = ⟨caller, w.hashed, effect⟩ :: w.deeds)
    (hshown : Shown p w.deeds caller.operation w.hashed)
    (hwithin : effect.Within p w.deeds caller.operation)
    (hkeeps : ∀ token, effect.consumes token = false) : Holding p w' := by
  refine ⟨⟨?_, ?_, ?_⟩, by rw [hpreviews]; exact h.row⟩
  · rw [hpreviews]
    exact h.bound.tokens
  · rw [hpreviews, hdeeds]
    intro y hy q hq hconsumes
    rcases List.mem_cons.mp hy with rfl | hy
    · rw [hkeeps] at hconsumes
      cases hconsumes
    · exact h.bound.used y hy q hq hconsumes
  · rw [hpreviews, hdeeds]
    obtain ⟨b, hb⟩ := h.row
    exact ⟨⟨_, hb, hconfirms.token, hconfirms.session, hshown, hwithin⟩, h.bound.authorised⟩

section Attempt

variable {a : Attempt} {w : Site}

/-- What is left of an attempt keeps the account in order. -/
abbrev Safe (caller : Caller) (prog : Handler Response) (w : Site) : Prop :=
  siteWorld.wp Undisturbed Bound (lifted (some caller) prog) (fun _ => Bound) w

variable {e : Call} {op : Uuid} {w' : Site} {s : DeletionSnapshot} {k : Answer e → Handler Response}
  {before : List Deed} {ids : List String} {active : Verified}

theorem safe_call (h : ∀ c, Undisturbed w (.call (some caller) e) c →
      Bound (Site.act w (.call (some caller) e) c).2
        ∧ Safe caller (k (Site.act w (.call (some caller) e) c).1)
          (Site.act w (.call (some caller) e) c).2) : Safe caller (Prog.ask e >>= k) w := h

theorem safe_look (he : e.Ordinary) (hw : Bound w)
    (h : ∀ c w', Undisturbed w (.call (some caller) e) c → Quiet caller w w' →
      w' = (Site.act w (.call (some caller) e) c).2 →
      Safe caller (k (Site.act w (.call (some caller) e) c).1) w') :
    Safe caller (Prog.ask e >>= k) w := by
  refine safe_call fun c hc => ?_
  have hq := ordinary_quiet he hc
  exact ⟨hq.bound hw, h c _ hc hq rfl⟩

theorem safe_ite {c : Prop} [Decidable c] {x y : Handler Response} (hx : c → Safe caller x w)
    (hy : ¬c → Safe caller y w) : Safe caller (if c then x else y) w := by
  split
  next hc => exact hx hc
  next hc => exact hy hc

theorem safe_of_only {prog : Handler Response} (hp : prog.Only Call.Ordinary) (hw : Bound w) :
    Safe caller prog w := by
  refine wp_of_only (lifted_only hp) (fun w e c he hc hw => ?_) (fun _ h => h) hw
  cases e with
  | call who e =>
    obtain ⟨rfl, he⟩ := he
    exact (ordinary_quiet he hc).bound hw
  | randomToken | insertPreview => exact he.elim

/-! ### The ways to end -/

theorem interruptInternal_only (a : Attempt) : (interruptInternal a).Only Call.Ordinary :=
  only_call trivial fun _ => only_stop _

theorem record_only (a : Attempt) (status : Nat) (body : Body) (code : Option String) :
    (record a status body code).Only Call.Ordinary := by
  refine only_call trivial fun r => ?_
  cases r with
  | ok _ => trivial
  | error _ => exact interruptInternal_only a

theorem Call.Housekeeps.ordinary (h : e.Housekeeps) : e.Ordinary := by
  cases e <;> trivial

theorem finishDeletion_only (a : Attempt) (d : Deletion) (p : Preview) :
    (finishDeletion a d p).Only Call.Ordinary := by
  refine only_call trivial fun published => only_bind (record_only ..) fun response => ?_
  refine only_bind ?_ fun _ => trivial
  exact (finalizeDeletionOrReconcile_only d.app a.operation published.2).mono
    fun _ => Call.Housekeeps.ordinary

theorem resumeDeletion_only (a : Attempt) (d : Deletion) (p : Preview) :
    (resumeDeletion a d p).Only Call.Ordinary := by
  refine only_call trivial fun r => ?_
  cases r with
  | error _ => exact interruptInternal_only a
  | ok metadata =>
    dsimp only
    split
    · exact interruptInternal_only a
    · refine only_call trivial fun drained => ?_
      split
      · exact finishDeletion_only a d p
      · exact interruptInternal_only a

theorem safe_interrupt (hw : Bound w) : Safe caller (interruptInternal a) w :=
  safe_of_only (interruptInternal_only a) hw

theorem safe_finishError {code : String} {status : Nat} (hw : Bound w) :
    Safe caller (finishError a code status) w :=
  safe_of_only (record_only ..) hw

/-! ### The directory -/

theorem tombstone_deeds (w : Site) (caller : Caller) (app op : Uuid) (c : TombstoneChoice) :
    (w.call (some caller) (.tombstone app op) c).2.deeds = w.deeds
      ∨ (w.call (some caller) (.tombstone app op) c).2.deeds
        = ⟨caller, w.hashed, .tombstoned app⟩ :: w.deeds := by
  show w.account (some caller) (if _ then _ else _) ++ w.deeds = _
    ∨ w.account (some caller) (if _ then _ else _) ++ w.deeds = _
  split
  · exact .inr rfl
  · exact .inl rfl

theorem safe_moveToTrash (hconfirms : Confirms caller p) (h : Ready caller p w)
    (hshown : Shown p w.deeds caller.operation w.hashed) :
    Safe caller (moveToTrash a caller.deletion p) w := by
  refine safe_call fun c hc => ?_
  obtain ⟨m, c⟩ := c
  have hpreviews : (Site.act w (.call (some caller) (.tombstone caller.deletion.app a.operation))
      (m, c)).2.apps.previews = w.apps.previews :=
    act_previews (e := .tombstone caller.deletion.app a.operation) w.apps
      (fun _ heq => by cases heq) c
  have hbound : Bound (Site.act w (.call (some caller) (.tombstone caller.deletion.app a.operation))
      (m, c)).2 := by
    rcases tombstone_deeds (w.after m) caller caller.deletion.app a.operation c with hdeeds | hdeeds
    · exact h.holding.bound.congr hpreviews hdeeds
    · exact (h.holding.deed hconfirms hpreviews hdeeds hshown ⟨hconfirms.app.symm, h.spent⟩
        fun _ => rfl).bound
  refine ⟨hbound, ?_⟩
  split
  · exact safe_of_only (finishDeletion_only ..) hbound
  · refine safe_look trivial hbound fun _ w' _ hq _ => ?_
    exact safe_interrupt (hq.bound hbound)

/-- A snapshot that was taken is of what is there. -/
structure Snapped (caller : Caller) (w w' : Site) (s : DeletionSnapshot) : Prop extends
    Calm caller w w' where
  hashed : w'.hashed = some s.facts
  containers : w'.containersOf caller.deletion.app = s.facts.containerIds

theorem safe_snapshot {k : Except String DeletionSnapshot → Handler Response} (hw : Bound w)
    (herror : ∀ error w', Bound w' → Safe caller (k (.error error)) w')
    (hok : ∀ s w' m, (w.after m).clock = w'.clock →
      (∀ p ∈ w.apps.previews, p.token = caller.deletion.token → p.consumed = false →
        w.clock < p.expiresAt → w'.clock < p.expiresAt) →
      Snapped caller w w' s → Safe caller (k (.ok s)) w') :
    Safe caller (Prog.ask (.deletionSnapshot caller.deletion.app caller.deletion.removeContainer)
      >>= k) w := by
  refine safe_call fun c hc => ?_
  obtain ⟨m, answer⟩ := c
  have hcalm : Calm caller w (Site.act w (.call (some caller)
      (.deletionSnapshot caller.deletion.app caller.deletion.removeContainer)) (m, answer)).2 :=
    ⟨rfl, rfl, hc.1⟩
  refine ⟨hcalm.bound hw, ?_⟩
  cases answer with
  | error error => exact herror error _ (hcalm.bound hw)
  | ok s =>
    by_cases hshows : (w.after m).shows caller.deletion.app caller.deletion.removeContainer s
    · have hanswer : (Site.act w (.call (some caller)
          (.deletionSnapshot caller.deletion.app caller.deletion.removeContainer))
          (m, .ok s)).1 = .ok s := if_pos hshows
      have hhashed : (Site.act w (.call (some caller)
          (.deletionSnapshot caller.deletion.app caller.deletion.removeContainer))
          (m, .ok s)).2.hashed = some s.facts := by
        show Site.hashes _ _ (if _ then _ else _) = _
        rw [if_pos hshows]
        rfl
      rw [hanswer]
      refine hok s _ m rfl (hc.2.2 rfl) ⟨hcalm, hhashed, ?_⟩
      unfold Site.shows at hshows
      simp only [Bool.and_eq_true, beq_iff_eq] at hshows
      exact hshows.1.1.2.symm
    · have hanswer : (Site.act w (.call (some caller)
          (.deletionSnapshot caller.deletion.app caller.deletion.removeContainer))
          (m, .ok s)).1 = .error "DOCKER_OBSERVATION_FAILED" := if_neg hshows
      rw [hanswer]
      exact herror _ _ (hcalm.bound hw)

/-- The last comparison: what it hashed is what the preview showed, the removed containers
aside. -/
theorem shown_of_match {f : DeletionFacts}
    (hids : p.facts.containerIds = p.containerIds) {own : Bool}
    (hmatch : deletionFactsMatch f p.facts (if own then some p.containerIds else none) = true)
    (hown : own = true → f.containerIds = [] ∧ RemovedBy before op p.app p.facts.containerIds) :
    Shown p before op (some f) := by
  have heq := of_decide_eq_true hmatch
  cases own with
  | true =>
    obtain ⟨hnone, hremoved⟩ := hown rfl
    refine .inr ⟨?_, hnone, hremoved⟩
    rw [hids]
    exact heq
  | false => exact .inl heq

theorem safe_lastSnapshot (hconfirms : Confirms caller p) (h : Ready caller p w) :
    Safe caller (lastSnapshot a caller.deletion p) w := by
  refine safe_look trivial h.holding.bound fun drained w hc hq _ => ?_
  have h := hq.ready h
  refine safe_ite (fun _ => ?_) fun _ => safe_interrupt h.holding.bound
  refine safe_snapshot h.holding.bound (fun _ _ hw => safe_interrupt hw) fun s w' m _ _ hsnap => ?_
  have h := hsnap.ready h
  refine safe_ite (fun _ => safe_interrupt h.holding.bound) fun hsame => ?_
  have hshown : Shown p w'.deeds caller.operation w'.hashed := by
    rw [hsnap.hashed]
    have hsame := not_or.mp hsame
    have hfound := Decidable.not_not.mp hsame.1
    have hmatch := hsame.2
    rw [Bool.not_eq_true', Bool.not_eq_false] at hmatch
    refine shown_of_match hconfirms.ids hmatch fun hown => ?_
    obtain ⟨hremove, -⟩ := Bool.and_eq_true_iff.mp hown
    rw [if_pos hremove] at hfound
    exact ⟨hfound, h.removed hremove⟩
  refine safe_look trivial h.holding.bound fun same w'' hc hq _ => ?_
  refine safe_ite (fun _ => ?_) fun _ => safe_interrupt (hq.bound h.holding.bound)
  refine safe_moveToTrash hconfirms (hq.ready h) ?_
  rw [hq.deeds, hq.hashed]
  exact hshown

/-! ### The container -/

/-- The token is this operation's, and the facts that were hashed are those the preview
showed. -/
structure Compared (caller : Caller) (p : Preview) (w : Site) : Prop where
  holding : Holding p w
  spent : SpentBy w.deeds caller.operation p
  hashed : w.hashed = some p.facts
  remove : caller.deletion.removeContainer = true

/-- The containers are still those of the preview. -/
structure Removing (caller : Caller) (p : Preview) (w : Site) : Prop extends
    Compared caller p w where
  containers : w.containersOf caller.deletion.app = p.facts.containerIds

theorem Quiet.compared (hq : Quiet caller w w') (h : Compared caller p w) : Compared caller p w' :=
  ⟨hq.holding h.holding, by rw [hq.deeds]; exact h.spent, hq.hashed.trans h.hashed, h.remove⟩

theorem Removing.still (h : Removing caller p w) (he : e.Ordinary)
    (hremoving : e.removing = true) {c : Pick (.call (some caller) e)}
    (hc : Undisturbed w (.call (some caller) e) c) :
    Removing caller p (Site.act w (.call (some caller) e) c).2 := by
  refine ⟨(ordinary_quiet he hc).compared h.toCompared, ?_⟩
  rw [ordinary_act he]
  exact (hc.2.1 hremoving).trans h.containers

theorem Removing.removals (hconfirms : Confirms caller p) (h : Removing caller p w) :
    ∀ ids : List String, ids ⊆ p.facts.containerIds → Holding p { w with
        deeds := ids.map (fun id => ⟨caller, w.hashed, .removed caller.deletion.app id⟩)
          ++ w.deeds }
  | [], _ => ⟨h.holding.bound.congr rfl rfl, h.holding.row⟩
  | id :: ids, hsub => by
    have hlater : w.deeds ⊆
        ids.map (fun id => ⟨caller, w.hashed, .removed caller.deletion.app id⟩) ++ w.deeds :=
      List.subset_append_right _ _
    have hrest := h.removals hconfirms ids (List.subset_of_cons_subset hsub)
    refine @Holding.deed _ _ _ _ (.removed caller.deletion.app id) hconfirms hrest rfl rfl ?_
      ⟨hconfirms.app.symm, hconfirms.remove.trans h.remove, hsub List.mem_cons_self,
        h.spent.mono hlater⟩ fun _ => rfl
    rw [h.hashed]
    exact .inl rfl

theorem composeRun_previews (w : Host) (action : ComposeAction) (app op : Uuid)
    (c : Choice (.composeRun action app op)) :
    (Host.act w (.composeRun action app op) c).2.previews = w.previews :=
  act_previews (e := .composeRun action app op) w (fun _ heq => by cases heq) c

theorem Removing.stopped (h : Removing caller p w)
    {c : Pick (.call (some caller) (.composeRun .stop caller.deletion.app op))}
    (hc : Undisturbed w (.call (some caller) (.composeRun .stop caller.deletion.app op)) c) :
    Removing caller p
      (Site.act w (.call (some caller) (.composeRun .stop caller.deletion.app op)) c).2 := by
  obtain ⟨m, c⟩ := c
  have hquiet : Quiet caller w (Site.act w
      (.call (some caller) (.composeRun .stop caller.deletion.app op)) (m, c)).2 :=
    ⟨⟨composeRun_previews w.apps .stop caller.deletion.app op c, rfl, hc.1⟩, rfl⟩
  exact ⟨hquiet.compared h.toCompared, (hc.2.1 rfl).trans h.containers⟩

/-- Removing it is what the preview announced; when Compose reports success it is done. -/
theorem Removing.removed (hconfirms : Confirms caller p) (h : Removing caller p w)
    {c : Pick (.call (some caller) (.composeRun .remove caller.deletion.app op))}
    (hc : Undisturbed w (.call (some caller) (.composeRun .remove caller.deletion.app op)) c) :
    Bound (Site.act w (.call (some caller) (.composeRun .remove caller.deletion.app op)) c).2
      ∧ ((Site.act w (.call (some caller) (.composeRun .remove caller.deletion.app op)) c).1
          = .ok () → Ready caller p
          (Site.act w (.call (some caller) (.composeRun .remove caller.deletion.app op)) c).2) := by
  obtain ⟨m, changes, answer⟩ := c
  have hpreviews : (Site.act w (.call (some caller) (.composeRun .remove caller.deletion.app op))
      (m, changes, answer)).2.apps.previews = w.apps.previews :=
    composeRun_previews w.apps .remove caller.deletion.app op (changes, answer)
  have hcontainers : (w.after m).containersOf caller.deletion.app = p.facts.containerIds :=
    (hc.2.1 rfl).trans h.containers
  by_cases hclears : (changes || answer.isOk) = true
  · have hdeeds : (Site.act w (.call (some caller) (.composeRun .remove caller.deletion.app op))
        (m, changes, answer)).2.deeds = p.facts.containerIds.map
          (fun id => ⟨caller, w.hashed, .removed caller.deletion.app id⟩) ++ w.deeds := by
      show Site.account (w.after m) (some caller) (if _ then _ else _) ++ w.deeds = _
      rw [if_pos hclears, hcontainers]
      show (List.map _ (List.map _ _)) ++ w.deeds = _
      rw [List.map_map]
      rfl
    have hall := h.removals hconfirms p.facts.containerIds (List.Subset.refl _)
    have hbound := hall.bound.congr hpreviews hdeeds
    refine ⟨hbound, fun _ => ⟨⟨hbound, by rw [hpreviews]; exact h.holding.row⟩, ?_, fun _ => ?_⟩⟩
    · rw [hdeeds]
      exact h.spent.mono (List.subset_append_right _ _)
    · rw [hdeeds]
      intro id hid
      refine ⟨_, List.mem_append_left _ (List.mem_map_of_mem hid), rfl, ?_⟩
      rw [hconfirms.app]
  · have hdeeds : (Site.act w (.call (some caller) (.composeRun .remove caller.deletion.app op))
        (m, changes, answer)).2.deeds = w.deeds := by
      show Site.account (w.after m) (some caller) (if _ then _ else _) ++ w.deeds = _
      rw [if_neg hclears]
      rfl
    refine ⟨h.holding.bound.congr hpreviews hdeeds, fun hanswer => ?_⟩
    have hanswer : answer = .ok () := hanswer
    rw [hanswer, Bool.or_eq_true] at hclears
    exact absurd (.inr rfl) hclears

theorem safe_composeRemove (hconfirms : Confirms caller p) (h : Removing caller p w) :
    Safe caller (composeRemove a caller.deletion p) w := by
  refine safe_call fun c hc => ?_
  have h := h.stopped hc
  refine ⟨h.holding.bound, ?_⟩
  split
  · exact safe_interrupt h.holding.bound
  · refine safe_call fun c hc => ?_
    obtain ⟨hbound, hready⟩ := h.removed hconfirms hc
    refine ⟨hbound, ?_⟩
    split
    · exact safe_interrupt hbound
    next hok =>
      have h := hready hok
      refine safe_look trivial h.holding.bound fun gone w' _ hq _ => ?_
      have h := hq.ready h
      refine safe_ite (fun _ => ?_) fun _ => safe_interrupt h.holding.bound
      refine safe_look trivial h.holding.bound fun o w' _ hq _ => ?_
      have h := hq.ready h
      split
      · exact safe_interrupt h.holding.bound
      · exact safe_lastSnapshot hconfirms h

theorem containersOf_of_containerIs {app : Uuid} {pending : Bool}
    {c : Pick (.call (some caller) (.containerIs ids app pending))}
    (h : (Site.act w (.call (some caller) (.containerIs ids app pending)) c).1 = true) :
    (Site.act w (.call (some caller) (.containerIs ids app pending)) c).2.containersOf
      app = ids := by
  have h : (c.2 && ids == (w.after c.1).containersOf app) = true := h
  rw [Bool.and_eq_true, beq_iff_eq] at h
  exact h.2.symm

theorem safe_removeVerified (hconfirms : Confirms caller p) (h : Compared caller p w)
    (hids : s.facts.containerIds = p.facts.containerIds) :
    Safe caller (removeVerified a caller.deletion p s active) w := by
  refine safe_look trivial h.holding.bound fun loaded w _ hq _ => ?_
  have h := hq.compared h
  split
  · exact safe_interrupt h.holding.bound
  next final _ =>
    refine safe_ite (fun _ => safe_interrupt h.holding.bound) fun _ => ?_
    refine safe_look trivial h.holding.bound fun paths w _ hq _ => ?_
    have h := hq.compared h
    split
    · exact safe_interrupt h.holding.bound
    · refine safe_look trivial h.holding.bound fun same w' _ hq hw' => ?_
      have h := hq.compared h
      refine safe_ite (fun hsame => ?_) fun _ => safe_interrupt h.holding.bound
      have h : Removing caller p w' := by
        refine ⟨h, ?_⟩
        rw [hw', containersOf_of_containerIs hsame]
        exact hids
      refine safe_ite (fun _ => safe_interrupt h.holding.bound) fun _ => ?_
      refine safe_call fun same hc => ?_
      have h := h.still (e := .revalidateBinds final.bindIdentities) trivial rfl hc
      refine ⟨h.holding.bound, safe_ite (fun _ => ?_) fun _ => safe_finishError h.holding.bound⟩
      refine safe_call fun passed hc => ?_
      have h := h.still (e := .deadlinePassed) trivial rfl hc
      refine ⟨h.holding.bound, safe_ite (fun _ => safe_finishError h.holding.bound) fun _ => ?_⟩
      exact safe_composeRemove hconfirms h

theorem safe_markRemoval (hconfirms : Confirms caller p)
    (h : Compared caller p w) (hids : s.facts.containerIds = p.facts.containerIds) :
    Safe caller (markRemoval a caller.deletion p s active) w := by
  refine safe_look trivial h.holding.bound fun readable w _ hq _ => ?_
  have h := hq.compared h
  split
  · exact safe_interrupt h.holding.bound
  · exact safe_removeVerified hconfirms h hids
  · refine safe_look trivial h.holding.bound fun o w _ hq _ => ?_
    have h := hq.compared h
    split
    · exact safe_interrupt h.holding.bound
    · exact safe_removeVerified hconfirms h hids

theorem safe_removeContainer (hconfirms : Confirms caller p)
    (h : Compared caller p w) (hids : s.facts.containerIds = p.facts.containerIds) :
    Safe caller (removeContainer a caller.deletion p s) w := by
  refine safe_look trivial h.holding.bound fun loaded w _ hq _ => ?_
  have h := hq.compared h
  split
  · exact safe_finishError h.holding.bound
  next active _ =>
    refine safe_look trivial h.holding.bound fun free w _ hq _ => ?_
    have h := hq.compared h
    refine safe_ite (fun _ => ?_) fun _ => safe_finishError h.holding.bound
    refine safe_look trivial h.holding.bound fun unready w _ hq _ => ?_
    have h := hq.compared h
    split
    · exact safe_finishError h.holding.bound
    · refine safe_look trivial h.holding.bound fun same w _ hq _ => ?_
      have h := hq.compared h
      refine safe_ite (fun _ => ?_) fun _ => safe_finishError h.holding.bound
      exact safe_markRemoval hconfirms h hids

/-! ### The token -/

/-- The facts hashed are shown by the preview, with the containers gone that this operation
removed. -/
structure Matched (caller : Caller) (a : Attempt) (p : Preview) (s : DeletionSnapshot)
    (before : List Deed) : Prop where
  facts : deletionFactsMatch s.facts p.facts
    (if removalAlreadyApplied a caller.deletion p s.facts.containerIds then some p.containerIds
      else none) = true
  own : removalAlreadyApplied a caller.deletion p s.facts.containerIds = true →
    RemovedBy before caller.operation p.app p.facts.containerIds

theorem Matched.facts_eq (h : Matched caller a p s before)
    (hnot : removalAlreadyApplied a caller.deletion p s.facts.containerIds = false) :
    s.facts = p.facts := by
  have hmatch := h.facts
  rw [hnot] at hmatch
  exact of_decide_eq_true hmatch

/-- The token is this operation's: the container is removed, or there is none to remove
any more. -/
theorem safe_applyDeletion (hconfirms : Confirms caller p)
    (h : Holding p w) (hspent : SpentBy w.deeds caller.operation p)
    (hhashed : w.hashed = some s.facts) (hmatched : Matched caller a p s w.deeds) :
    Safe caller (applyDeletion a caller.deletion p s) w := by
  refine safe_ite (fun hthere => ?_) fun hnone => ?_
  · simp only [Bool.and_eq_true, Bool.not_eq_true'] at hthere
    have hfacts := hmatched.facts_eq hthere.2
    refine safe_removeContainer hconfirms ⟨h, hspent, ?_, hthere.1.1⟩ (by rw [hfacts])
    rw [hhashed, hfacts]
  · refine safe_lastSnapshot hconfirms ⟨h, hspent, fun hremove => ?_⟩
    cases happlied : removalAlreadyApplied a caller.deletion p s.facts.containerIds with
    | true => exact hmatched.own happlied
    | false =>
      -- Nothing was there to remove, neither now nor in the preview.
      have hempty : p.facts.containerIds = [] := by
        rw [← hmatched.facts_eq happlied]
        rw [hremove, happlied] at hnone
        simpa using hnone
      intro id hid
      rw [hempty] at hid
      cases hid

/-- The row of the preview, as it was read, and what it means to this attempt if its token
is consumed. -/
structure Located (caller : Caller) (a : Attempt) (p : Preview) (w : Site) : Prop where
  bound : Bound w
  row : p ∈ w.apps.previews
  own : p.consumed = true → a.resumed = true →
    SpentBy w.deeds caller.operation p
      ∧ (caller.deletion.removeContainer = true → w.containersOf caller.deletion.app = [] →
        RemovedBy w.deeds caller.operation p.app p.facts.containerIds)

theorem Calm.located (hq : Calm caller w w') (h : Located caller a p w) :
    Located caller a p w' := by
  refine ⟨hq.bound h.bound, by rw [hq.previews]; exact h.row, fun hused hresumed => ?_⟩
  rw [hq.deeds]
  refine ⟨(h.own hused hresumed).1, fun hremove hnone => (h.own hused hresumed).2 hremove ?_⟩
  refine List.eq_nil_iff_forall_not_mem.mpr fun id hid => ?_
  have hthere := hq.grows hremove id hid
  rw [hnone] at hthere
  cases hthere

theorem Located.holding (h : Located caller a p w) : Holding p w := ⟨h.bound, p.consumed, h.row⟩

/-- A row after the update that consumes a token. -/
def Preview.used (token : String) (p : Preview) : Preview :=
  if p.token = token then { p with consumed := true } else p

theorem Preview.used_token (token : String) (p : Preview) : (p.used token).token = p.token := by
  unfold Preview.used
  split <;> rfl

theorem Preview.used_eq (token : String) (p : Preview) :
    ∃ b, { p with consumed := b } = p.used token := by
  unfold Preview.used
  split
  · exact ⟨true, rfl⟩
  · exact ⟨p.consumed, rfl⟩

theorem Bound.consume (h : Bound w) (hrow : p ∈ w.apps.previews)
    (hconfirms : Confirms caller p) (hfresh : p.consumed = false)
    (hshown : Shown p w.deeds caller.operation w.hashed) {now : Instant} (hnow : now < p.expiresAt)
    (hpreviews : w'.apps.previews = w.apps.previews.map (Preview.used p.token))
    (hdeeds : w'.deeds = ⟨caller, w.hashed, .consumed p.token now⟩ :: w.deeds) : Bound w' := by
  refine ⟨?_, ?_, ?_⟩
  · rw [hpreviews, List.pairwise_map]
    refine h.tokens.imp fun hne => ?_
    rw [Preview.used_token, Preview.used_token]
    exact hne
  · rw [hpreviews, hdeeds]
    intro y hy q' hq' hconsumes
    obtain ⟨q, hq, rfl⟩ := List.mem_map.mp hq'
    rw [Preview.used_token] at hconsumes
    by_cases htoken : q.token = p.token
    · rw [Preview.used, if_pos htoken]
    · rw [Preview.used, if_neg htoken]
      rcases List.mem_cons.mp hy with rfl | hy
      · exact absurd (eq_of_beq hconsumes).symm htoken
      · exact h.used y hy q hq hconsumes
  · rw [hpreviews, hdeeds]
    have hkeep : ∀ q ∈ w.apps.previews, ∃ b,
        { q with consumed := b } ∈ w.apps.previews.map (Preview.used p.token) := by
      intro q hq
      obtain ⟨b, hb⟩ := q.used_eq p.token
      exact ⟨b, hb ▸ List.mem_map_of_mem hq⟩
    refine ⟨?_, h.authorised.keep hkeep⟩
    obtain ⟨b, hb⟩ := hkeep p hrow
    refine ⟨_, hb, hconfirms.token, hconfirms.session, hshown, rfl, hnow, fun y hy => ?_⟩
    -- An earlier consumption would show in the row.
    cases hconsumes : y.effect.consumes p.token with
    | false => rfl
    | true =>
      have hused := h.used y hy p hrow hconsumes
      rw [hfresh] at hused
      cases hused

section

variable (hconfirms : Confirms caller p)

include hconfirms

theorem Located.consumed (h : Located caller a p w)
    (hfresh : p.consumed = false) (hhashed : w.hashed = some p.facts)
    (hunexpired : w.clock < p.expiresAt)
    {c : Pick (.call (some caller) (.consumePreview caller.deletion.token))}
    (hc : Undisturbed w (.call (some caller) (.consumePreview caller.deletion.token)) c) :
    Bound (Site.act w (.call (some caller) (.consumePreview caller.deletion.token)) c).2
      ∧ (c.2.applied = true →
        Holding p (Site.act w (.call (some caller) (.consumePreview caller.deletion.token)) c).2
        ∧ SpentBy (Site.act w (.call (some caller)
          (.consumePreview caller.deletion.token)) c).2.deeds
          caller.operation p) := by
  obtain ⟨m, o⟩ := c
  rw [← hconfirms.token] at hc ⊢
  cases happlied : o.applied with
  | false =>
    refine ⟨h.bound.congr ?_ ?_, fun hcontra => ?_⟩
    · show (if o.applied then _ else w.apps).previews = _
      rw [if_neg (by rw [happlied]; nofun)]
    · show Site.account (w.after m) (some caller) (if _ then _ else _) ++ w.deeds = _
      rw [if_neg (by rw [happlied]; nofun)]
      rfl
    · cases hcontra
  | true =>
    have hnow := hc.2.2 rfl p h.row hconfirms.token hfresh hunexpired
    have hpreviews :
      (Site.act w (.call (some caller) (.consumePreview p.token)) (m, o)).2.apps.previews
        = w.apps.previews.map (Preview.used p.token) := by
      show (if o.applied then w.apps.consumePreview p.token else w.apps).previews = _
      rw [if_pos happlied]
      rfl
    have hdeeds : (Site.act w (.call (some caller) (.consumePreview p.token)) (m, o)).2.deeds
        = ⟨caller, w.hashed, .consumed p.token (w.after m).clock⟩ :: w.deeds := by
      have hany : (w.after m).apps.previews.any
        (fun q => q.token == p.token && !q.consumed) = true :=
        List.any_eq_true.mpr ⟨p, h.row, by simp [hfresh]⟩
      show Site.account (w.after m) (some caller) (if _ then _ else _) ++ w.deeds = _
      rw [if_pos (by rw [happlied, hany]; rfl)]
      rfl
    have hshown : Shown p w.deeds caller.operation w.hashed := by
      rw [hhashed]
      exact .inl rfl
    have hbound := h.bound.consume h.row hconfirms hfresh hshown hnow hpreviews hdeeds
    refine ⟨hbound, fun _ => ⟨⟨hbound, ?_⟩, ?_⟩⟩
    · obtain ⟨b, hb⟩ := p.used_eq p.token
      rw [hpreviews]
      exact ⟨b, hb ▸ List.mem_map_of_mem h.row⟩
    · rw [hdeeds]
      refine ⟨_, List.mem_cons_self, rfl, ?_⟩
      show (p.token == p.token && decide ((w.after m).clock < p.expiresAt)) = true
      rw [beq_self_eq_true, decide_eq_true hnow]
      rfl

theorem safe_consumePreview (h : Located caller a p w) (hmay : p.consumed = true → a.resumed = true)
    (hhashed : w.hashed = some s.facts) (hmatched : Matched caller a p s w.deeds)
    (hunexpired : p.consumed = false → w.clock < p.expiresAt) :
    Safe caller (consumePreview a caller.deletion p s) w := by
  refine safe_ite (fun hused => ?_) fun hfresh => ?_
  · exact safe_applyDeletion hconfirms h.holding (h.own hused (hmay hused)).1 hhashed hmatched
  · have hfresh : p.consumed = false := Bool.eq_false_iff.mpr hfresh
    have hnot : removalAlreadyApplied a caller.deletion p s.facts.containerIds = false := by
      simp [removalAlreadyApplied, hfresh]
    have hfacts := hmatched.facts_eq hnot
    refine safe_call fun c hc => ?_
    obtain ⟨hbound, hspent⟩ := h.consumed hconfirms hfresh (hfacts ▸ hhashed) (hunexpired hfresh) hc
    refine ⟨hbound, ?_⟩
    split
    · exact safe_interrupt hbound
    next updated hok =>
      refine safe_ite (fun _ => safe_finishError hbound) fun _ => ?_
      have happlied : c.2.applied = true := by
        obtain ⟨m, o⟩ := c
        cases o with
        | ok => rfl
        | failed _ => cases hok
      obtain ⟨hholding, hspent⟩ := hspent happlied
      refine safe_applyDeletion hconfirms hholding hspent hhashed
        ⟨hmatched.facts, fun happlied => ?_⟩
      rw [hnot] at happlied
      cases happlied

theorem safe_compareSnapshot (h : Located caller a p w)
    (hmay : p.consumed = true → a.resumed = true)
    (hunexpired : p.consumed = false → w.clock < p.expiresAt) :
    Safe caller (compareSnapshot a caller.deletion p) w := by
  refine safe_snapshot h.bound (fun _ _ hw => safe_finishError hw) fun s w' m _ hclock hsnap => ?_
  have h' := hsnap.located h
  refine safe_ite (fun hmatch => ?_) fun _ => safe_finishError h'.bound
  refine safe_consumePreview hconfirms h' hmay hsnap.hashed ⟨hmatch, fun happlied => ?_⟩
    fun hfresh => hclock p h.row hconfirms.token hfresh (hunexpired hfresh)
  unfold removalAlreadyApplied at happlied
  simp only [Bool.and_eq_true, List.isEmpty_iff] at happlied
  obtain ⟨⟨⟨⟨hresumed, hused⟩, hremove⟩, hnone⟩, -⟩ := happlied
  exact (h'.own hused hresumed).2 hremove (hsnap.containers.trans hnone)

theorem safe_locateApp (hw : Bound w)
    (hown : w.apps.isLive caller.deletion.app = true → Located caller a p w) :
    Safe caller (locateApp a caller.deletion p) w := by
  refine safe_look trivial hw fun c w' hc hq hw' => ?_
  have hw := hq.bound hw
  refine safe_ite (fun hthere => ?_) fun _ => ?_
  · have hlive : (c.2 && w.apps.isLive caller.deletion.app) = true := hthere
    have h := hq.located (hown (Bool.and_eq_true_iff.mp hlive).2)
    refine safe_ite (fun _ => safe_finishError hw) fun hmay => ?_
    have hmay : p.consumed = true → a.resumed = true := by
      simpa [Bool.and_eq_true_iff] using hmay
    refine safe_look trivial hw fun now w'' _ hq hw'' => ?_
    refine safe_ite (fun _ => safe_finishError (hq.bound hw)) fun hnow => ?_
    refine safe_compareSnapshot hconfirms (hq.located h) hmay fun hfresh => ?_
    simp only [hfresh, Bool.not_false, Bool.true_and, decide_eq_true_eq] at hnow
    rw [hw'']
    exact Int.lt_of_not_ge hnow
  · refine safe_ite (fun _ => ?_) fun _ => safe_finishError hw
    exact safe_ite (fun _ => safe_of_only (resumeDeletion_only ..) hw) fun _ => safe_finishError hw

end

/-- The preview that the handler accepts is in the table, and fits the request. -/
theorem confirms_of_read {readable : Bool}
    (hread : (Host.act w.apps (.preview caller.deletion.token caller.deletion.app) readable).1
      = .ok (some p)) (hfits : previewFits caller.deletion caller.session p = true) :
    p ∈ w.apps.previews ∧ Confirms caller p := by
  have hfound : w.apps.previews.find? (fun p => p.token == caller.deletion.token
      && p.app == caller.deletion.app) = some p := by
    cases readable with
    | false => cases hread
    | true => exact Except.ok.inj hread
  have hkey := List.find?_some hfound
  simp only [Bool.and_eq_true, beq_iff_eq] at hkey
  unfold previewFits at hfits
  simp only [Bool.and_eq_true, beq_iff_eq] at hfits
  obtain ⟨⟨⟨⟨⟨⟨⟨⟨hsession, -⟩, -⟩, hremove⟩, -⟩, -⟩, -⟩, -⟩, hids⟩ := hfits
  exact ⟨List.mem_of_find?_eq_some hfound, hkey.1, hkey.2, hsession, hremove, hids⟩

theorem safe_deleteApp {d : Deletion} (hw : Bound w) (hown : ResumesOwn w (.delete a d)) :
    Safe (Job.caller a d) (deleteApp a d) w := by
  have hlocated : ∀ p ∈ w.apps.previews, Confirms (Job.caller a d) p →
      w.apps.isLive d.app = true → Located (Job.caller a d) a p w := by
    intro p hp hconfirms hlive
    refine ⟨hw, hp, fun hused hresumed => ?_⟩
    obtain ⟨hconsumed, hremoved⟩ := hown hresumed hlive p hp hconfirms.token hused
    rw [hconfirms.app]
    exact ⟨hw.spent hp (hconfirms.token ▸ hconsumed), hremoved⟩
  refine safe_look trivial hw fun free w1 _ hq1 hw1 => ?_
  refine safe_ite (fun _ => ?_) fun _ => safe_finishError (hq1.bound hw)
  refine safe_look trivial (hq1.bound hw) fun busy w2 _ hq2 hw2 => ?_
  have hbound := hq2.bound (hq1.bound hw)
  split
  · exact safe_interrupt hbound
  · refine safe_ite (fun _ => safe_finishError hbound) fun _ => ?_
    refine safe_look trivial hbound fun readable w3 _ hq3 hw3 => ?_
    have hbound := hq3.bound hbound
    split
    · exact safe_interrupt hbound
    · exact safe_finishError hbound
    next p hread =>
      refine safe_ite (fun hfits => ?_) fun _ => safe_finishError hbound
      obtain ⟨hp, hconfirms⟩ := @confirms_of_read (Job.caller a d) p w2 _ hread hfits
      rw [hq2.previews, hq1.previews] at hp
      refine safe_locateApp hconfirms hbound fun hlive => ?_
      rw [hw3, hw2, hw1] at hlive
      exact hq3.located (hq2.located (hq1.located (hlocated p hp hconfirms hlive)))

end Attempt

/-! ## Previews -/

variable {w : Site}

theorem Bound.insert (h : Bound w) (row : Preview) (hfresh : row.consumed = false)
    (o : Outcome) : Bound (w.insertPreview row o).2 := by
  unfold Site.insertPreview
  split
  · exact h
  next hnone =>
    split
    · simp only [List.any_eq_true, beq_iff_eq, not_exists, not_and] at hnone
      refine ⟨List.pairwise_cons.mpr ⟨fun p hp heq => hnone p hp heq.symm, h.tokens⟩, ?_, ?_⟩
      · intro y hy p hp hconsumes
        rcases List.mem_cons.mp hp with rfl | hp
        · obtain ⟨q, hq, htoken, -⟩ := h.authorised.row_of_consumes hy hconsumes
          exact absurd htoken (hnone q hq)
        · exact h.used y hy p hp hconsumes
      · exact h.authorised.keep fun p hp => ⟨p.consumed, List.mem_cons_of_mem _ hp⟩
    · exact h

theorem Bound.other (h : Bound w) {e : Call} (he : ∀ token, e ≠ .consumePreview token)
    (c : Pick (.call none e)) : Bound (Site.act w (.call none e) c).2 :=
  h.congr (act_previews w.apps he c.2) rfl

theorem deletionPreview_bound {app : Uuid} {removeContainer : Bool} {session : String}
    (hw : Bound w) : siteWorld.wp Undisturbed Bound (deletionPreview app removeContainer session)
      (fun _ => Bound) w := by
  refine wp_call fun c _ => ?_
  have hw := hw.other (e := .tryApp app) (fun _ heq => by cases heq) c
  refine ⟨hw, wp_ensure_bind (fun _ => ?_) fun _ => hw⟩
  refine wp_call fun c _ => ?_
  have hw := hw.other (e := .deletionSnapshot app removeContainer) (fun _ heq => by cases heq) c
  refine ⟨hw, wp_orElse_bind (fun s _ => ?_) fun _ _ => hw⟩
  refine wp_call fun c _ => ⟨hw, wp_orStop_bind (fun token _ => ?_) fun _ => hw⟩
  refine wp_call fun c _ => ?_
  have hw := hw.other (e := .nowUtc) (fun _ heq => by cases heq) c
  refine ⟨hw, wp_call fun o _ => ?_⟩
  have hnew := fun row hfresh => hw.insert row hfresh o
  exact ⟨hnew _ (by rfl), wp_orElse_bind (fun _ _ => hnew _ (by rfl)) fun _ _ => hnew _ (by rfl)⟩

/-! ## Whole histories -/

theorem bound_of_only {prog : Prog Call Answer ε α}
    (hp : prog.Only fun e => ∀ token, e ≠ .consumePreview token) (hw : Bound w) :
    siteWorld.wp Undisturbed Bound (lifted none prog) (fun _ => Bound) w := by
  refine wp_of_only (lifted_only hp) (fun w e c he _ hw => ?_) (fun _ h => h) hw
  cases e with
  | call who e =>
    obtain ⟨rfl, he⟩ := he
    exact hw.other he c
  | randomToken | insertPreview => exact he.elim

theorem Call.Housekeeps.keepsPreviews {e : Call} (h : e.Housekeeps) :
    ∀ token, e ≠ .consumePreview token := by
  intro token heq
  rw [heq] at h
  exact h

theorem turn_bound (b : Turn) (h : Bound w) : Bound (w.turn b) := by
  cases b with
  | collect picked =>
    refine h.congr ?_ rfl
    show (w.apps.change (.collect picked)).previews = _
    unfold Host.change
    dsimp only
    split <;> rfl
  | live | containers | passed => exact h.congr rfl rfl

/-- Every step of the deletion service keeps the account of its removals bound to previews. -/
theorem bound_keeps : deletionService.Keeps (fun _ => Undisturbed) ResumesOwn (fun _ _ => True)
      (fun w _ => Bound w) where
  forget := fun _ _ _ h => h
  forgetAll := fun _ _ h => h
  receive := by
    intro demand w _ hw
    refine wp_weaken (G := Undisturbed) (C := Bound) (Q := fun _ => Bound) ?_ (fun _ _ _ h => h)
      (fun _ _ => trivial) fun _ _ h => h
    cases demand with
    | preview | reconcile => exact hw
    | delete key session requestId d =>
      refine wp_part (P := fun _ => Bound) (bound_of_only ?_ hw) (fun _ _ h => h) fun _ _ h => h
      refine only_call (fun _ heq => by cases heq) fun r => ?_
      cases r with
      | error _ => trivial
      | ok result => cases result <;> trivial
  serve := by
    intro w _ _ job _ hw hown
    cases job with
    | preview app removeContainer session =>
      exact wp_attempt_bind (deletionPreview_bound hw) fun _ _ h => h
    | delete a d => exact lifted_discard (safe_deleteApp hw hown)
    | replayed app op =>
      exact lifted_discard (bound_of_only ((replayDeletion_only app op).mono
        fun _ => Call.Housekeeps.keepsPreviews) hw)
    | reconcile =>
      exact lifted_discard (bound_of_only (reconcile_only.mono
        fun _ => Call.Housekeeps.keepsPreviews) hw)
  boot := by
    intro w hw
    refine lifted_discard (bound_of_only ?_ hw)
    refine only_call (fun _ heq => by cases heq) fun r => only_bind (only_orElse _ _) ?_
    exact fun _ => resumeDeletions_only.mono fun _ => Call.Housekeeps.keepsPreviews
  change := fun _ _ b _ h => turn_bound b h

theorem bound_empty : Bound .empty :=
  ⟨List.Pairwise.nil, fun _ hy => (List.not_mem_nil hy).elim, trivial⟩

/-- Every effect of every deletion is covered by its preview, in every history in which
resumed deletions continue what they began and nobody interferes. -/
theorem deletions_authorised (steps : List deletionService.Step)
    (hsteps : Along deletionService.step
      (deletionService.Allowed (fun _ => Undisturbed) ResumesOwn fun _ _ => True)
      ⟨.empty, []⟩ steps) :
    Authorised (play deletionService.step ⟨.empty, []⟩ steps).world.apps.previews
      (play deletionService.step ⟨.empty, []⟩ steps).world.deeds :=
  (Service.invariant bound_keeps hsteps bound_empty).authorised

/-! ## A token that another operation consumed -/

instance (s : Service.State Site Job) (step : deletionService.Step) :
    Decidable (deletionService.Allowed (fun _ => Undisturbed) ResumesOwn
      (fun _ _ => True) s step) :=
  Service.decidableAllowed _ s step

/-- Nothing happens elsewhere, every call does what it is for, and Docker has these
containers of the app. -/
def undisturbed (ids : List String) : siteWorld.Script
  | _, .call _ (.deletionSnapshot app removeContainer) =>
    (⟨0, none⟩, .ok
      { facts := ⟨app, "app", none, "solodock-app", none, none, none, none, removeContainer, ids,
          [], [], !removeContainer, false⟩
        container := ids.head?.map fun id =>
          ⟨id, [], ⟨.running, .none, none, none, none⟩, none, none, none⟩ })
  | _, .call _ e => (⟨0, none⟩, smooth e)
  | _, .randomToken => some "token"
  | _, .insertPreview _ => .ok

def removal : Deletion := ⟨0, "token", "app", none, true⟩

/-- An app with a container, and the preview of its deletion. -/
def previewed : List deletionService.Step :=
  [.change (.live [Host.newMetadata "app" 0 none 0]), .change (.containers [(0, "c")]),
    .receive (.preview 0 true "session") (undisturbed ["c"]), .serve 0 (undisturbed ["c"])]

/-- A deletion removes the container, and the process dies before it moves the directory. -/
def removedThenDied (key : String) : List deletionService.Step :=
  [.receive (.delete key "session" 1 removal) (undisturbed ["c"]),
    .giveUp 0 20 (undisturbed ["c"]), .restart (undisturbed [])]

/-- The same deletion is asked for again, and ends. -/
def deletionRetried (key : String) : List deletionService.Step :=
  [.receive (.delete key "session" 2 removal) (undisturbed []), .serve 0 (undisturbed [])]

def removedAndRetried : List deletionService.Step :=
  previewed ++ removedThenDied "delete-0000000001" ++ deletionRetried "delete-0000000001"

theorem removed_and_retried_authorised :
    (play deletionService.step ⟨.empty, []⟩ removedAndRetried).world.deeds.map
        (fun x => (x.caller.operation, x.effect))
      = [(1, .tombstoned 0), (1, .removed 0 "c"), (1, .consumed "token" 0)]
    ∧ Authorised (play deletionService.step ⟨.empty, []⟩ removedAndRetried).world.apps.previews
      (play deletionService.step ⟨.empty, []⟩ removedAndRetried).world.deeds :=
  ⟨by decide +kernel, deletions_authorised removedAndRetried (by decide +kernel)⟩

/-- Two deletions of one preview: the first is claimed and the process dies; the second
consumes the token and removes the container before it dies too; the first is resumed. -/
def resumedAfterAnother : List deletionService.Step :=
  previewed ++ [.receive (.delete "delete-0000000001" "session" 1 removal) (undisturbed ["c"]),
    .restart (undisturbed [])] ++ removedThenDied "delete-0000000002" ++
      deletionRetried "delete-0000000001"

/-- It takes the token and the missing container for its own, and moves the app to the
trash. -/
theorem resumed_on_anothers_token :
    (play deletionService.step ⟨.empty, []⟩ resumedAfterAnother).world.deeds.map
        (fun x => (x.caller.operation, x.effect))
      = [(1, .tombstoned 0), (2, .removed 0 "c"), (2, .consumed "token" 0)]
    ∧ ¬Authorised (play deletionService.step ⟨.empty, []⟩ resumedAfterAnother).world.apps.previews
      (play deletionService.step ⟨.empty, []⟩ resumedAfterAnother).world.deeds := by
  decide +kernel

end SoloDock.Apps
