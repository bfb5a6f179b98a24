import SoloDock.Deploy.Ledger

/-!
# What the deployment ledger keeps

Two laws of the tables, over every history of statements.

`deployment_ledger_lawful`: an app has at most one open deployment, the transitions of a
deployment are numbered from 1 on, and from one statement to the next a deployment that has
ended stays as it ended, a marker moves on by at most one, and the container it names is not
replaced.

`row_and_transitions_agree`: the last transition of a deployment is in the phase of its row,
and a deployment that has ended has one terminal transition and one audit event of its end.
The restart does not keep this, it writes the row alone (`interrupted_without_transition`);
it holds as long as no restart finds an open row.
-/

namespace SoloDock.Deploy

open Lib Db
open List (append_nil mem_append mem_map mem_map_of_mem mem_singleton not_mem_nil)
open Tables (empty endings terminalEvent transitionsOf)

variable {statement : Statement} {s s' : Tables}

/-! ## The invariant -/

/-- A marker names a container only once it is observed. -/
def Effects.Settled (e : Effects) : Prop :=
  (e.phase ≠ some .observed → e.postContainerId = none) ∧
    (e.rollbackPhase ≠ some .observed → e.rollbackPostContainerId = none)

/-- The transitions of a deployment are numbered from 1 on. -/
def Tables.Numbered (s : Tables) (id : Uuid) : Prop :=
  ∃ n, 0 < n ∧ (s.transitionsOf id).map (·.seq) = List.range' 1 n

structure Lawful (s : Tables) : Prop where
  keyed : s.deployments.Pairwise fun r r' => r.id ≠ r'.id
  single : s.deployments.Pairwise fun r r' =>
    r.appId = r'.appId → r.status.isTerminal = true ∨ r'.status.isTerminal = true
  numbered : ∀ r ∈ s.deployments, s.Numbered r.id
  known : ∀ t ∈ s.transitions, ∃ r ∈ s.deployments, r.id = t.deploymentId
  settled : ∀ r ∈ s.deployments, r.effects.Settled

theorem lawful_empty : Lawful empty :=
  ⟨List.Pairwise.nil, List.Pairwise.nil, fun _ h => absurd h not_mem_nil,
    fun _ h => absurd h not_mem_nil, fun _ h => absurd h not_mem_nil⟩

/-! ## What a step leaves of a row -/

variable {phase phase' : Option EffectPhase} {post post' : Option String} {r r' row : Row}
  {text : String}

theorem Marks.settled
    (h : Marks phase phase' post post') (hpost : phase ≠ some .observed → post = none) :
    phase' ≠ some .observed → post' = none := by
  intro hne
  rcases h with ⟨rfl, rfl⟩ | ⟨rfl, -, rfl⟩ | ⟨-, rfl⟩
  · exact hpost hne
  · exact hpost (by decide)
  · exact absurd rfl hne

theorem Marks.keeps
    (h : Marks phase phase' post post') (hpost : phase ≠ some .observed → post = none)
    {container : String} (hcontainer : post = some container) : post' = some container := by
  rcases h with ⟨-, rfl⟩ | ⟨-, -, rfl⟩ | ⟨rfl, -⟩
  · exact hcontainer
  · exact hcontainer
  · rw [hpost (by decide)] at hcontainer
    cases hcontainer

/-- From nothing to started to observed. -/
def Moves (phase phase' : Option EffectPhase) : Prop :=
  phase' = phase ∨ phase = none ∧ phase' = some .started ∨
    phase = some .started ∧ phase' = some .observed

theorem Marks.moves (h : Marks phase phase' post post') : Moves phase phase' := by
  rcases h with ⟨h, -⟩ | ⟨h, h', -⟩ | ⟨h, h'⟩
  · exact .inl h
  · exact .inr (.inl ⟨h, h'⟩)
  · exact .inr (.inr ⟨h, h'⟩)

/-- What any statement leaves of a row. -/
structure Continues (r r' : Row) : Prop where
  record : r'.record = r.record
  stays : r.status.isTerminal = true → r'.status = r.status
  apply : Marks r.effects.phase r'.effects.phase r.effects.postContainerId
    r'.effects.postContainerId
  rollback : Marks r.effects.rollbackPhase r'.effects.rollbackPhase
    r.effects.rollbackPostContainerId r'.effects.rollbackPostContainerId

theorem Continues.id (h : Continues r r') : r'.id = r.id := by
  unfold Row.id
  rw [h.record]

theorem Continues.appId (h : Continues r r') : r'.appId = r.appId := by
  unfold Row.appId
  rw [h.record]

theorem Continues.terminal (h : Continues r r') (hr : r.status.isTerminal = true) :
    r'.status.isTerminal = true := by
  rw [h.stays hr]
  exact hr

/-- Effects that are settled stay settled. -/
theorem Continues.settled (h : Continues r r') (hr : r.effects.Settled) : r'.effects.Settled :=
  ⟨h.apply.settled hr.1, h.rollback.settled hr.2⟩

theorem continues_refl (r : Row) : Continues r r := ⟨rfl, fun _ => rfl, marks_same, marks_same⟩

theorem Noted.continues (h : Noted r r') : Continues r r' :=
  ⟨h.record, fun _ => h.status, h.apply, h.rollback⟩

variable {code : Option String} {status : Status}

theorem moved_continues {phase : Phase} (hopen : r.status.isTerminal = false) :
    Continues r (Tables.moved phase status code text r) := by
  refine ⟨rfl, fun h => ?_, marks_same, marks_same⟩
  rw [hopen] at h
  cases h

theorem interrupted_continues (hopen : r.status.isTerminal = false) :
    Continues r (Tables.interrupted text r) := by
  refine ⟨rfl, fun h => ?_, marks_same, marks_same⟩
  rw [hopen] at h
  cases h

theorem Change.rows (h : Change statement s s') :
    ∃ (g : Row → Row) (new : List Row), (∀ r, Continues r (g r)) ∧
      s'.deployments = s.deployments.map g ++ new ∧
      (new = [] ∨ ∃ row, new = [row] ∧ s.accepts row = true ∧ row.effects = {} ∧ s'.transitions =
          s.transitions ++ [⟨row.id, 1, .queued, "scheduled", none, row.createdAt⟩]) := by
  cases h with
  | added row haccepts hstatus hphase heffects hdeployments htransitions hendings =>
    refine ⟨fun r => r, [row], continues_refl, ?_,
      .inr ⟨row, rfl, haccepts, heffects, htransitions⟩⟩
    rw [hdeployments, List.map_id']
  | moved row phase status result code text hstatement hrow hopen hdeployments htransitions =>
    refine ⟨_, [], fun r => ?_, by rw [hdeployments, append_nil], .inl rfl⟩
    split
    next hp =>
      simp only [Bool.and_eq_true, Bool.not_eq_true'] at hp
      exact moved_continues hp.2
    · exact continues_refl r
  | noted g hnoted hdeployments htransitions haudit =>
    exact ⟨g, [], fun r => (hnoted r).continues, by rw [hdeployments, append_nil],
      .inl rfl⟩
  | closed text hstatement hdeployments htransitions haudit =>
    refine ⟨_, [], fun r => ?_, by rw [hdeployments, append_nil], .inl rfl⟩
    split
    · exact continues_refl r
    next hopen => exact interrupted_continues (by simpa using hopen)

theorem accepts_iff (h : s.accepts row = true) {r : Row} (hr : r ∈ s.deployments) :
    r.id ≠ row.id ∧ (r.appId = row.appId → r.status.isTerminal = true) := by
  have hall := List.all_eq_true.mp h r hr
  simp only [Bool.and_eq_true, Bool.or_eq_true, decide_eq_true_eq] at hall
  exact ⟨hall.1, fun happ => hall.2.resolve_left fun hne => hne happ⟩

/-! ## The numbers of the transitions -/

theorem foldr_max_concat (l : List Nat) (x : Nat) :
    (l ++ [x]).foldr max 0 = max (l.foldr max 0) x := by
  induction l with
  | nil => simp
  | cons y l ih =>
    rw [List.cons_append, List.foldr_cons, List.foldr_cons, ih, Nat.max_assoc]

theorem foldr_max_range' (n : Nat) : (List.range' 1 n).foldr max 0 = n := by
  induction n with
  | zero => rfl
  | succ n ih =>
    rw [List.range'_concat, foldr_max_concat, ih]
    omega

theorem transitionsOf_append (s s' : Tables) {t : Transition}
    (h : s'.transitions = s.transitions ++ [t]) (id : Uuid) :
    s'.transitionsOf id = s.transitionsOf id ++ if t.deploymentId = id then [t] else [] := by
  unfold transitionsOf
  rw [h, List.filter_append, List.filter_cons, List.filter_nil]
  simp

theorem transitionsOf_same (s s' : Tables) (h : s'.transitions = s.transitions) (id : Uuid) :
    s'.transitionsOf id = s.transitionsOf id := by
  unfold transitionsOf
  rw [h]

theorem transitionsOf_fresh (h : Lawful s) {row : Row}
    (haccepts : s.accepts row = true) : s.transitionsOf row.id = [] := by
  unfold transitionsOf
  rw [List.filter_eq_nil_iff]
  intro t ht hid
  obtain ⟨r, hr, hrid⟩ := h.known t ht
  exact (accepts_iff haccepts hr).1 (hrid.trans (of_decide_eq_true hid))

theorem Change.numbered (h : Change statement s s') (hs : Lawful s) {r : Row}
    (hr : r ∈ s.deployments) : s'.Numbered r.id := by
  obtain ⟨n, hn, hseq⟩ := hs.numbered r hr
  cases h with
  | added row haccepts hstatus hphase heffects hdeployments htransitions hendings =>
    have hne : row.id ≠ r.id := fun he => (accepts_iff haccepts hr).1 he.symm
    refine ⟨n, hn, ?_⟩
    rw [transitionsOf_append s s' htransitions, if_neg hne, append_nil]
    exact hseq
  | moved row phase status result code text hstatement hrow hopen hdeployments htransitions =>
    by_cases hid : row.id = r.id
    · refine ⟨n + 1, Nat.succ_pos n, ?_⟩
      rw [transitionsOf_append s s' htransitions, if_pos hid, List.map_append, hseq,
        List.range'_concat, List.map_singleton, hid, Tables.nextSeq, hseq, foldr_max_range']
      simp [Nat.add_comm]
    · refine ⟨n, hn, ?_⟩
      rw [transitionsOf_append s s' htransitions, if_neg hid, append_nil]
      exact hseq
  | noted g hnoted hdeployments htransitions | closed text hstatement hdeployments htransitions =>
    refine ⟨n, hn, ?_⟩
    rw [transitionsOf_same s s' htransitions]
    exact hseq

/-- Every transition is one of a recorded deployment. -/
theorem Change.known (h : Change statement s s') (hs : Lawful s) {t : Transition}
    (ht : t ∈ s'.transitions) : ∃ r ∈ s'.deployments, r.id = t.deploymentId := by
  obtain ⟨g, new, hg, hrows, -⟩ := h.rows
  have hold : ∀ r ∈ s.deployments, ∃ r' ∈ s'.deployments, r'.id = r.id := by
    intro r hr
    refine ⟨g r, ?_, (hg r).id⟩
    rw [hrows]
    exact List.mem_append_left _ (mem_map_of_mem hr)
  have hkept : t ∈ s.transitions → ∃ r ∈ s'.deployments, r.id = t.deploymentId := by
    intro ht
    obtain ⟨r, hr, hid⟩ := hs.known t ht
    obtain ⟨r', hr', hid'⟩ := hold r hr
    exact ⟨r', hr', hid'.trans hid⟩
  cases h with
  | added row haccepts hstatus hphase heffects hdeployments htransitions hendings =>
    rw [htransitions, mem_append, mem_singleton] at ht
    rcases ht with ht | rfl
    · exact hkept ht
    · refine ⟨row, ?_, rfl⟩
      rw [hdeployments]
      exact List.mem_append_right _ List.mem_cons_self
  | moved row phase status result code text hstatement hrow hopen hdeployments htransitions =>
    rw [htransitions, mem_append, mem_singleton] at ht
    rcases ht with ht | rfl
    · exact hkept ht
    · exact hold row hrow
  | noted g hnoted hdeployments htransitions | closed text hstatement hdeployments htransitions =>
    exact hkept (htransitions ▸ ht)

theorem Change.lawful (h : Change statement s s') (hs : Lawful s) : Lawful s' := by
  obtain ⟨g, new, hg, hrows, hnew⟩ := h.rows
  have hkeyed : (s.deployments.map g).Pairwise fun r r' => r.id ≠ r'.id := by
    rw [List.pairwise_map]
    refine hs.keyed.imp fun {r r'} hne => ?_
    rw [(hg r).id, (hg r').id]
    exact hne
  have hsingle : (s.deployments.map g).Pairwise fun r r' =>
      r.appId = r'.appId → r.status.isTerminal = true ∨ r'.status.isTerminal = true := by
    rw [List.pairwise_map]
    refine hs.single.imp fun {r r'} himp happ => ?_
    rw [(hg r).appId, (hg r').appId] at happ
    exact (himp happ).imp (hg r).terminal (hg r').terminal
  have hnumbered : ∀ r ∈ s.deployments.map g, s'.Numbered r.id := by
    intro r' hr'
    obtain ⟨r, hr, rfl⟩ := mem_map.mp hr'
    rw [(hg r).id]
    exact h.numbered hs hr
  have hsettled : ∀ r ∈ s.deployments.map g, r.effects.Settled := by
    intro r' hr'
    obtain ⟨r, hr, rfl⟩ := mem_map.mp hr'
    exact (hg r).settled (hs.settled r hr)
  rcases hnew with rfl | ⟨row, rfl, haccepts, heffects, htransitions⟩
  · rw [append_nil] at hrows
    exact ⟨hrows ▸ hkeyed, hrows ▸ hsingle, hrows ▸ hnumbered, fun t ht => h.known hs ht,
      hrows ▸ hsettled⟩
  · -- the added row against the others
    have hapart : ∀ r' ∈ s.deployments.map g, r'.id ≠ row.id ∧
        (r'.appId = row.appId → r'.status.isTerminal = true) := by
      intro r' hr'
      obtain ⟨r, hr, rfl⟩ := mem_map.mp hr'
      obtain ⟨hid, happ⟩ := accepts_iff haccepts hr
      rw [(hg r).id, (hg r).appId]
      exact ⟨hid, fun heq => (hg r).terminal (happ heq)⟩
    refine ⟨?_, ?_, ?_, fun t ht => h.known hs ht, ?_⟩
    · rw [hrows, List.pairwise_append]
      refine ⟨hkeyed, List.pairwise_singleton _ _, fun r' hr' r hr => ?_⟩
      rw [mem_singleton.mp hr]
      exact (hapart r' hr').1
    · rw [hrows, List.pairwise_append]
      refine ⟨hsingle, List.pairwise_singleton _ _, fun r' hr' r hr happ => ?_⟩
      rw [mem_singleton.mp hr] at happ
      exact .inl ((hapart r' hr').2 happ)
    · intro r hr
      rw [hrows, mem_append, mem_singleton] at hr
      rcases hr with hr | rfl
      · exact hnumbered r hr
      · refine ⟨1, Nat.one_pos, ?_⟩
        rw [transitionsOf_append s s' htransitions, transitionsOf_fresh hs haccepts, if_pos rfl]
        rfl
    · intro r hr
      rw [hrows, mem_append, mem_singleton] at hr
      rcases hr with hr | rfl
      · exact hsettled r hr
      · rw [heffects]
        exact ⟨fun _ => rfl, fun _ => rfl⟩

/-- The tables are lawful after every history of statements. -/
theorem play_lawful (deeds : List Deed) : Lawful (play Tables.step empty deeds) :=
  (along_of_forall (G := fun _ _ => True) (fun _ _ => trivial) _ deeds).invariant
    (fun s d _ hs => (step_cases s d).lawful hs) lawful_empty

/-! ## The laws -/

/-- What the tables show at any moment. -/
structure Orderly (s : Tables) : Prop where
  /-- an app has at most one queued or running deployment -/
  single : ∀ r ∈ s.deployments, ∀ r' ∈ s.deployments, r.appId = r'.appId →
    r.status.isTerminal = false → r'.status.isTerminal = false → r = r'
  /-- the transitions of a deployment are numbered 1 to n -/
  numbered : ∀ r ∈ s.deployments, ∃ n, 0 < n ∧
    (s.transitionsOf r.id).map (·.seq) = List.range' 1 n

/-- What becomes of every deployment. -/
structure Lasts (s s' : Tables) : Prop where
  row : ∀ r ∈ s.deployments, ∃ r' ∈ s'.deployments, r'.id = r.id ∧
    (r.status.isTerminal = true → r'.status = r.status) ∧
    Moves r.effects.phase r'.effects.phase ∧
    Moves r.effects.rollbackPhase r'.effects.rollbackPhase ∧
    (∀ container, r.effects.postContainerId = some container →
      r'.effects.postContainerId = some container) ∧
    (∀ container, r.effects.rollbackPostContainerId = some container →
      r'.effects.rollbackPostContainerId = some container)

/-- Lawful tables have one open deployment an app, and number the transitions of each. -/
theorem Lawful.orderly (h : Lawful s) : Orderly s := by
  refine ⟨fun r hr r' hr' happ hopen hopen' => ?_, h.numbered⟩
  have hforward : s.deployments.Pairwise fun r r' : Row => r.appId = r'.appId →
      r.status.isTerminal = false → r'.status.isTerminal = false → r = r' := by
    refine h.single.imp fun himp happ hopen hopen' => ?_
    have hended := himp happ
    rw [hopen, hopen'] at hended
    simp at hended
  have hback : s.deployments.Pairwise (flip fun r r' : Row => r.appId = r'.appId →
      r.status.isTerminal = false → r'.status.isTerminal = false → r = r') :=
    hforward.imp fun himp happ hopen hopen' => (himp happ.symm hopen' hopen).symm
  exact List.Pairwise.forall_of_forall_of_flip (fun _ _ _ _ _ => rfl) hforward hback hr hr' happ
    hopen hopen'

/-- A statement takes back nothing that was recorded. -/
theorem Change.lasts (h : Change statement s s') (hs : Lawful s) : Lasts s s' := by
  obtain ⟨g, new, hg, hrows, -⟩ := h.rows
  refine ⟨fun r hr => ⟨g r, ?_, (hg r).id, (hg r).stays, (hg r).apply.moves,
    (hg r).rollback.moves, fun container hc => (hg r).apply.keeps (hs.settled r hr).1 hc,
    fun container hc => (hg r).rollback.keeps (hs.settled r hr).2 hc⟩⟩
  rw [hrows]
  exact List.mem_append_left _ (mem_map_of_mem hr)

/-- In every history of statements the tables are orderly, and whatever is done next every
deployment lasts. -/
theorem deployment_ledger_lawful (deeds : List Deed) (next : Deed) :
    Orderly (play Tables.step Tables.empty deeds) ∧
      Lasts (play Tables.step Tables.empty deeds)
        (play Tables.step Tables.empty (deeds ++ [next])) := by
  have hlawful := play_lawful deeds
  refine ⟨hlawful.orderly, ?_⟩
  rw [play_append]
  exact (step_cases _ next).lasts hlawful

/-- In every history of statements, deployments have ids of their own, a transition is one of a
deployment there is, and an effect marker names a container only once it is observed. -/
theorem markers_settled (deeds : List Deed) :
    let s := play Tables.step Tables.empty deeds
    s.deployments.Pairwise (fun r r' => r.id ≠ r'.id) ∧
      (∀ t ∈ s.transitions, ∃ r ∈ s.deployments, r.id = t.deploymentId) ∧
      ∀ r ∈ s.deployments, r.effects.Settled :=
  have hlawful := play_lawful deeds
  ⟨hlawful.keyed, hlawful.known, hlawful.settled⟩

/-! ## The row and its transitions -/

/-- The row, its transitions and the audit events tell the same. -/
structure Agrees (s : Tables) (r : Row) : Prop where
  latest : (s.transitionsOf r.id).getLast?.map (·.phase) = some r.phase
  closed : r.phase = .terminal ↔ r.status.isTerminal = true
  once : (s.transitionsOf r.id).countP (·.phase = .terminal) = if r.status.isTerminal then 1 else 0
  audited : (s.endings r.id).length = if r.status.isTerminal then 1 else 0

structure Told (s : Tables) : Prop where
  lawful : Lawful s
  known : ∀ id, s.endings id ≠ [] → ∃ r ∈ s.deployments, r.id = id
  rows : ∀ r ∈ s.deployments, Agrees s r

theorem told_empty : Told empty :=
  ⟨lawful_empty, fun _ h => absurd rfl h, fun _ h => absurd h not_mem_nil⟩

/-- The condition on a deed: a transition to the terminal phase is one to a terminal status,
and at a restart no deployment is open. -/
def Deed.Quiet (s : Tables) (d : Deed) : Prop :=
  match d.statement with
  | .transition _ phase status _ _ => phase = .terminal ↔ status.isTerminal = true
  | .interruptNonterminal => ∀ r ∈ s.deployments, r.status.isTerminal = true
  | _ => True

instance (s : Tables) (d : Deed) : Decidable (d.Quiet s) := by
  unfold Deed.Quiet
  split <;> infer_instance

/-- Rows whose status and phase are kept, with the transitions and audit events as they
were. -/
theorem Told.noted {g : Row → Row} (h : Told s) (hlawful : Lawful s') (hg : ∀ r, Noted r (g r))
    (hdeployments : s'.deployments = s.deployments.map g)
    (htransitions : s'.transitions = s.transitions) (haudit : s'.audit = s.audit) : Told s' := by
  have hendings : ∀ id, s'.endings id = s.endings id := by
    intro id
    unfold endings
    rw [haudit]
  have hid : ∀ r, (g r).id = r.id := fun r => (hg r).continues.id
  refine ⟨hlawful, fun id hne => ?_, fun r' hr' => ?_⟩
  · rw [hendings] at hne
    obtain ⟨r, hr, rfl⟩ := h.known id hne
    refine ⟨g r, ?_, hid r⟩
    rw [hdeployments]
    exact mem_map_of_mem hr
  · rw [hdeployments] at hr'
    obtain ⟨r, hr, rfl⟩ := mem_map.mp hr'
    obtain ⟨hlatest, hclosed, honce, haudited⟩ := h.rows r hr
    constructor
    · rw [hid, transitionsOf_same s s' htransitions, (hg r).phase]
      exact hlatest
    · rw [(hg r).phase, (hg r).status]
      exact hclosed
    · rw [hid, transitionsOf_same s s' htransitions, (hg r).status]
      exact honce
    · rw [hid, hendings, (hg r).status]
      exact haudited

theorem Told.added (h : Told s) (hlawful : Lawful s') (haccepts : s.accepts row = true)
    (hstatus : row.status = .queued) (hphase : row.phase = .queued)
    (hdeployments : s'.deployments = s.deployments ++ [row]) (htransitions : s'.transitions =
      s.transitions ++ [⟨row.id, 1, .queued, "scheduled", none, row.createdAt⟩])
    (hendings : ∀ id, s'.endings id = s.endings id) : Told s' := by
  refine ⟨hlawful, fun id hne => ?_, fun r hr => ?_⟩
  · rw [hendings] at hne
    obtain ⟨r, hr, hid⟩ := h.known id hne
    refine ⟨r, ?_, hid⟩
    rw [hdeployments]
    exact List.mem_append_left _ hr
  · rw [hdeployments, mem_append, mem_singleton] at hr
    rcases hr with hr | rfl
    · have hne : row.id ≠ r.id := fun he => (accepts_iff haccepts hr).1 he.symm
      obtain ⟨hlatest, hclosed, honce, haudited⟩ := h.rows r hr
      have hsame : s'.transitionsOf r.id = s.transitionsOf r.id := by
        rw [transitionsOf_append s s' htransitions, if_neg hne, append_nil]
      exact ⟨hsame ▸ hlatest, hclosed, hsame ▸ honce, (hendings r.id).symm ▸ haudited⟩
    · have hone : s'.transitionsOf r.id = [⟨r.id, 1, .queued, "scheduled", none, r.createdAt⟩] := by
        rw [transitionsOf_append s s' htransitions, transitionsOf_fresh h.lawful haccepts,
          if_pos rfl, List.nil_append]
      have hnone : s'.endings r.id = [] := by
        rw [hendings]
        by_cases hempty : s.endings r.id = []
        · exact hempty
        · obtain ⟨r', hr', hid⟩ := h.known r.id hempty
          exact absurd hid (accepts_iff haccepts hr').1
      refine ⟨?_, ?_, ?_, ?_⟩
      · rw [hone, hphase]
        rfl
      · rw [hphase, hstatus]
        decide
      · rw [hone, hstatus]
        rfl
      · rw [hnone, hstatus]
        decide

theorem endings_moved
    (hs : Lawful s) (hrow : row ∈ s.deployments) (haudit : s'.audit = if status.isTerminal then
        s.audit ++ (s.deployments.filter (·.id = row.id)).map (terminalEvent status code text)
      else s.audit) (id : Uuid) : s'.endings id = s.endings id ++
      if status.isTerminal = true ∧ row.id = id then [terminalEvent status code text row]
      else [] := by
  unfold endings
  rw [haudit, filter_key hs.keyed hrow]
  by_cases hterminal : status.isTerminal = true
  · rw [if_pos hterminal, List.filter_append, List.map_singleton, List.filter_cons, List.filter_nil]
    by_cases hid : row.id = id
    · simp [terminalEvent, AuditEvent.ends, hid, hterminal]
    · simp [terminalEvent, AuditEvent.ends, hid]
  · simp [hterminal]

theorem Told.moved {row : Row} {phase : Phase} {result : String}
    {text : String} (h : Told s) (hlawful : Lawful s')
    (hpair : phase = .terminal ↔ status.isTerminal = true) (hrow : row ∈ s.deployments)
    (hopen : row.status.isTerminal = false)
    (hdeployments : s'.deployments = s.deployments.map fun r =>
      if r.id = row.id && !r.status.isTerminal then Tables.moved phase status code text r else r)
    (htransitions : s'.transitions =
      s.transitions ++ [⟨row.id, s.nextSeq row.id, phase, result, code, text⟩])
    (haudit : s'.audit = if status.isTerminal then
        s.audit ++ (s.deployments.filter (·.id = row.id)).map (terminalEvent status code text)
      else s.audit) : Told s' := by
  have hendings := endings_moved h.lawful hrow haudit
  have hid : ∀ r : Row, (if r.id = row.id && !r.status.isTerminal then
      Tables.moved phase status code text r else r).id = r.id := by
    intro r
    split <;> rfl
  refine ⟨hlawful, fun id hne => ?_, fun r' hr' => ?_⟩
  · have hfound : ∃ r ∈ s.deployments, r.id = id := by
      by_cases hrowid : row.id = id
      · exact ⟨row, hrow, hrowid⟩
      · rw [hendings, if_neg fun hboth => hrowid hboth.2, append_nil] at hne
        exact h.known id hne
    obtain ⟨r, hr, rfl⟩ := hfound
    refine ⟨_, ?_, hid r⟩
    rw [hdeployments]
    exact mem_map_of_mem hr
  · rw [hdeployments] at hr'
    obtain ⟨r, hr, rfl⟩ := mem_map.mp hr'
    obtain ⟨hlatest, hclosed, honce, haudited⟩ := h.rows r hr
    have hof := transitionsOf_append s s' htransitions r.id
    have hends := hendings r.id
    by_cases hrowid : row.id = r.id
    · -- the row that moved: so far it had no terminal transition
      obtain rfl : row = r := eq_of_key_eq h.lawful.keyed hrow hr hrowid
      rw [if_pos (by simp [hopen])]
      rw [hopen] at honce haudited
      have hcount : (s'.transitionsOf row.id).countP (·.phase = .terminal) =
          if status.isTerminal then 1 else 0 := by
        rw [hof, if_pos rfl, List.countP_append, honce, List.countP_singleton]
        by_cases hterminal : status.isTerminal = true
        · simp [hpair.mpr hterminal, hterminal]
        · have hphase : phase ≠ .terminal := fun he => hterminal (hpair.mp he)
          simp [hphase, hterminal]
      have hlength : (s'.endings row.id).length = if status.isTerminal then 1 else 0 := by
        rw [hends, List.length_append, haudited]
        by_cases hterminal : status.isTerminal = true
        · simp [hterminal]
        · simp [hterminal]
      refine ⟨?_, hpair, hcount, hlength⟩
      show (s'.transitionsOf row.id).getLast?.map (·.phase) = some phase
      rw [hof, if_pos rfl, List.getLast?_concat]
      rfl
    · have hother : ¬(r.id = row.id && !r.status.isTerminal) = true := by
        intro hboth
        simp only [Bool.and_eq_true, decide_eq_true_eq] at hboth
        exact hrowid hboth.1.symm
      rw [if_neg hother]
      rw [if_neg hrowid, append_nil] at hof
      rw [if_neg fun hboth => hrowid hboth.2, append_nil] at hends
      exact ⟨hof ▸ hlatest, hclosed, hof ▸ honce, hends ▸ haudited⟩

theorem Change.told (h : Change statement s s') (d : Deed) (hd : d.statement = statement)
    (hquiet : d.Quiet s) (hs : Told s) : Told s' := by
  have hlawful := h.lawful hs.lawful
  cases h with
  | added row haccepts hstatus hphase heffects hdeployments htransitions hendings =>
    exact hs.added hlawful haccepts hstatus hphase hdeployments htransitions hendings
  | moved row phase status result code text hstatement hrow hopen hdeployments
    htransitions haudit =>
    subst hstatement
    unfold Deed.Quiet at hquiet
    rw [hd] at hquiet
    exact hs.moved hlawful hquiet hrow hopen hdeployments htransitions haudit
  | noted g hnoted hdeployments htransitions haudit =>
    exact hs.noted hlawful hnoted hdeployments htransitions haudit
  | closed text hstatement hdeployments htransitions haudit =>
    -- no row is open, so none is written
    subst hstatement
    unfold Deed.Quiet at hquiet
    rw [hd] at hquiet
    refine hs.noted hlawful noted_refl ?_ htransitions haudit
    rw [hdeployments]
    refine List.map_congr_left fun r hr => ?_
    rw [if_pos (hquiet r hr)]

/-- After a history without silent statements every transition is told. -/
theorem play_told {deeds : List Deed} (h : Along Tables.step (fun s d => d.Quiet s) empty deeds) :
    Told (play Tables.step empty deeds) :=
  h.invariant (fun s d hquiet hs => (step_cases s d).told d rfl hquiet hs) told_empty

/-- The transition with the highest number is in the phase of the row, and a deployment that
has ended has one terminal transition and one audit event. -/
structure Consistent (s : Tables) (r : Row) : Prop where
  latest : ∃ t ∈ s.transitionsOf r.id, t.phase = r.phase ∧
    ∀ t' ∈ s.transitionsOf r.id, t'.seq ≤ t.seq
  ended : r.status.isTerminal = true →
    (s.transitionsOf r.id).countP (·.phase = .terminal) = 1 ∧ (s.endings r.id).length = 1

/-- Tables that tell every transition agree with each row on what it has come to. -/
theorem Told.consistent (h : Told s) {r : Row} (hr : r ∈ s.deployments) : Consistent s r := by
  obtain ⟨hlatest, hclosed, honce, haudited⟩ := h.rows r hr
  constructor
  · obtain ⟨n, hn, hseq⟩ := h.lawful.numbered r hr
    cases hlast : (s.transitionsOf r.id).getLast? with
    | none =>
      rw [hlast] at hlatest
      cases hlatest
    | some t =>
      rw [hlast] at hlatest
      refine ⟨t, List.mem_of_getLast? hlast, Option.some.inj hlatest, fun t' ht' => ?_⟩
      obtain ⟨m, rfl⟩ : ∃ m, n = m + 1 := ⟨n - 1, by omega⟩
      have hlastSeq : t.seq = m + 1 := by
        obtain ⟨ts, hts⟩ := List.getLast?_eq_some_iff.mp hlast
        rw [hts, List.map_append, List.range'_concat] at hseq
        have htail := (List.append_inj' hseq rfl).2
        simp only [List.map_cons, List.map_nil, List.cons.injEq, and_true] at htail
        omega
      have hmem : t'.seq ∈ List.range' 1 (m + 1) := hseq ▸ mem_map_of_mem ht'
      rw [List.mem_range'_1] at hmem
      omega
  · intro hterminal
    rw [hterminal] at honce haudited
    exact ⟨honce, haudited⟩

/-- In every history in which transitions pair the terminal phase with a terminal status and
no restart finds an open deployment, every row agrees with its transitions. -/
theorem row_and_transitions_agree {deeds : List Deed}
    (h : Along Tables.step (fun s d => d.Quiet s) Tables.empty deeds) :
    ∀ r ∈ (play Tables.step Tables.empty deeds).deployments,
      Consistent (play Tables.step Tables.empty deeds) r :=
  fun _ hr => (play_told h).consistent hr

/-! ## A restart during a deployment -/

/-- The time of the first statement; the others follow a second apart. -/
def noon : Instant := 1756555200000000000

def deploymentDeeds (statements : List Statement) : List Deed :=
  statements.zipIdx.map fun (statement, i) => ⟨statement, noon + Instant.seconds i, true⟩

/-- A first deployment that succeeds. -/
def succeeding : List Deed :=
  deploymentDeeds [.create 7 1 .manual 3 none none none 9,
    .transition 7 .resolving .running "started" none,
    .transition 7 .terminal .succeeded "committed" none, .interruptNonterminal]

theorem succeeding_agrees :
    (play Tables.step Tables.empty succeeding).deployments.map (·.phase) = [.terminal] ∧
      ∀ r ∈ (play Tables.step Tables.empty succeeding).deployments,
        Consistent (play Tables.step Tables.empty succeeding) r :=
  ⟨by decide +kernel, row_and_transitions_agree (by decide +kernel)⟩

/-- The process dies while a deployment is applied, and restarts. -/
def restarted : List Deed :=
  deploymentDeeds [.create 7 1 .manual 3 none none none 9,
    .transition 7 .applying .running "image_verified" none, .interruptNonterminal]

/-- The row has ended, but none of its transitions is in its phase and nothing tells of the
end. -/
theorem interrupted_without_transition :
    let s := play Tables.step Tables.empty restarted
    ∃ r ∈ s.deployments, r.status.isTerminal = true ∧ r.phase = .terminal ∧
      (s.transitionsOf r.id).map (fun t => (t.seq, t.phase)) = [(1, .queued), (2, .applying)] ∧
      s.endings r.id = [] := by
  decide +kernel

end SoloDock.Deploy
