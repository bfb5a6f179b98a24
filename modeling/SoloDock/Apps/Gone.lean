import SoloDock.Apps.Owned

/-!
# A deleted app stays deleted

An app has the id of the operation that created it, so the request that created an app is
the only one that can make a directory of that id again: it does when its record is still
open while the app is deleted, and the request is then resumed. The app is back, the
receipt of its deletion says that it is not there, and no startup accepts that.

`Settled` is the whole invariant of a deletion: what startup asks of the disk (`Sound`),
and that nothing under way can bring a deleted app back. It is kept by every history in
which an app is moved to the trash only after the request that created it has ended, and
the deletions of which meet what their tombstones need (`Spared`).
-/

namespace SoloDock.Apps

open Lib Mutation
open Lib.World

/-- No record of this operation is pending or interrupted. -/
def Host.concluded (w : Host) (op : Uuid) : Bool :=
  w.ledger.all fun r => r.operationId != op || (r.status != .pending && r.status != .interrupted)

/-- The app cannot be created again: its creation has ended, and no identifier drawn later
is its id. -/
structure Past (w : Host) (app : Uuid) : Prop where
  concluded : w.concluded app = true
  drawn : app < w.next

structure Settled (w : Host) (ts : List Task) : Prop where
  attended : Attended w ts
  sound : Sound w
  past : ∀ app op, Deletes w app op → Past w app
  deleted : ∀ app ∈ w.deleted, w.isLive app = false ∧ Past w app
  ids : ∀ m ∈ w.live, m.id < w.next

variable {w : Host}

theorem concluded_iff {op : Uuid} : w.concluded op = true ↔
      ∀ r ∈ w.ledger, r.operationId = op → r.status ≠ .pending ∧ r.status ≠ .interrupted := by
  simp only [Host.concluded, List.all_eq_true, Bool.or_eq_true, bne_iff_ne, Bool.and_eq_true, ne_eq]
  constructor
  · intro h r hr hop
    rcases h r hr with hne | hboth
    · exact absurd hop hne
    · exact hboth
  · intro h r hr
    by_cases hop : r.operationId = op
    · exact .inr (h r hr hop)
    · exact .inl hop

variable {a : Attempt}

theorem not_concluded (hholds : w.ledger.Holds a.claim) : ¬w.concluded a.operation = true := by
  intro h
  obtain ⟨r, hr, hop, -, hpending⟩ := hholds
  exact (concluded_iff.mp h r (Ledger.find_some hr).1 hop).1 hpending

namespace Settled

variable {w w' : Host} {ts ts' : List Task}

theorem tidy (h : Settled w ts) : Tidy w ts := ⟨h.attended, h.sound.readable, h.sound.owned⟩

/-- A step that moves nothing to the trash and writes no receipt: what it proves was known
to be deleted, and no app it makes was. -/
theorem frame (h : Settled w ts) (htidy : Tidy w' ts') (htrash : w'.trash = w.trash)
    (hreceipts : w'.receipts = w.receipts)
    (hnew : ∀ app op, provenBy app (w'.recordOf app op) = true → Deletes w app op)
    (hkeep : ∀ r ∈ w.receipts, provenBy r.app (w.recordOf r.app r.operation) = true →
      r.finalized = false → provenBy r.app (w'.recordOf r.app r.operation) = true)
    (hlive : ∀ app, w'.isLive app = true → w.isLive app = true ∨ ¬Past w app)
    (hpast : ∀ app, Past w app → Past w' app)
    (hdeleted : ∀ app ∈ w'.deleted, app ∈ w.deleted ∨ ∃ op, Deletes w app op)
    (hids : ∀ m ∈ w'.live, m.id < w'.next) : Settled w' ts' := by
  have hdeletes : ∀ {app op}, Deletes w' app op → Deletes w app op := by
    rintro app op (⟨t, ht, happ, hop⟩ | ⟨r, hr, happ, hop⟩ | hproven)
    · exact .tombstone t (htrash ▸ ht) happ hop
    · exact .receipt r (hreceipts ▸ hr) happ hop
    · exact hnew app op hproven
  have habsent : ∀ {app}, Past w app → w.isLive app = false → w'.isLive app = false := by
    intro app hp hgone
    cases hthere : w'.isLive app with
    | false => rfl
    | true =>
      rcases hlive app hthere with hwas | hnot
      · rw [hwas] at hgone
        cases hgone
      · exact absurd hp hnot
  exact {
    attended := htidy.attended
    sound := {
      readable := htidy.readable
      owned := htidy.owned
      distinct := htrash ▸ h.sound.distinct
      source := hreceipts ▸ h.sound.source
      proven := fun r hr hopen => by
        rw [hreceipts] at hr
        exact hkeep r hr (h.sound.proven r hr hopen) hopen
      single := hreceipts ▸ h.sound.single
      agree := fun app op op' hd hd' => h.sound.agree app op op' (hdeletes hd) (hdeletes hd')
      absent := fun app op hd =>
        habsent (h.past app op (hdeletes hd)) (h.sound.absent app op (hdeletes hd))
      rows := htidy.attended.rows.operations }
    past := fun app op hd => hpast app (h.past app op (hdeletes hd))
    deleted := fun app hmem => by
      rcases hdeleted app hmem with hold | ⟨op, hd⟩
      · exact ⟨habsent (h.deleted app hold).2 (h.deleted app hold).1,
          hpast app (h.deleted app hold).2⟩
      · exact ⟨habsent (h.past app op hd) (h.sound.absent app op hd), hpast app (h.past app op hd)⟩
    ids := hids }

end Settled

/-! ## Nothing that has ended is opened again -/

namespace Past

variable {w w' : Host} {app : Uuid}

theorem update (h : Past w app) {route : Route} {key : String} {f : AppRecord → AppRecord}
    (hledger : w'.ledger = w.ledger.update route key f) (hnext : w.next ≤ w'.next)
    (hf : ∀ r ∈ w.ledger, r.At route key → (f r).operationId = r.operationId ∧
      (r.status ≠ .pending ∧ r.status ≠ .interrupted →
        (f r).status ≠ .pending ∧ (f r).status ≠ .interrupted)) : Past w' app := by
  refine ⟨concluded_iff.mpr fun r hr hop => ?_, Nat.lt_of_lt_of_le h.drawn hnext⟩
  rw [hledger] at hr
  obtain ⟨s, hs, heq⟩ := List.mem_map.mp hr
  split at heq
  next hat =>
    obtain ⟨hsop, hclosed⟩ := hf s hs hat
    rw [← heq] at hop ⊢
    exact hclosed (concluded_iff.mp h.concluded s hs (hsop.symm.trans hop))
  · cases heq
    exact concluded_iff.mp h.concluded s hs hop

theorem congr (h : Past w app) (hledger : w'.ledger = w.ledger) (hnext : w.next ≤ w'.next) :
    Past w' app :=
  ⟨concluded_iff.mpr (hledger ▸ concluded_iff.mp h.concluded), Nat.lt_of_lt_of_le h.drawn hnext⟩

theorem claimed {q : Query} (hrows : w.ledger.Rows w.next) (hclaimed : Claimed q w w')
    (h : Past w app) : Past w' app := by
  cases hclaimed with
  | same => exact h
  | drawn fresh hfresh => exact h.congr rfl (Nat.le_succ_of_le hfresh)
  | new fresh hnone hfresh hmentioned =>
    refine ⟨concluded_iff.mpr fun r hr hop => ?_, ?_⟩
    · rcases List.mem_append.mp hr with hr | hr
      · exact concluded_iff.mp h.concluded r hr hop
      · cases List.mem_singleton.mp hr
        -- The operation is drawn after the app's.
        have hlt := Nat.lt_of_lt_of_le h.drawn hfresh
        exact absurd hop.symm (Nat.ne_of_lt hlt)
    · exact Nat.lt_of_lt_of_le h.drawn (Nat.le_succ_of_le hfresh)
  | reopened fresh r hfind hstatus hfresh =>
    refine h.update rfl (Nat.le_succ_of_le hfresh) fun s hs hat => ⟨rfl, fun hclosed => ?_⟩
    have hsr : s = r := Option.some.inj ((hrows.find_of_at hs hat).symm.trans hfind)
    rw [hsr] at hclosed
    exact absurd hstatus hclosed.2

theorem interrupt (h : Past w app) : Past w.interrupt app := by
  refine ⟨concluded_iff.mpr fun r hr hop => ?_, h.drawn⟩
  obtain ⟨s, hs, rfl⟩ := List.mem_map.mp hr
  rw [(Ledger.advances_interrupted s).2.2.1] at hop
  have hclosed := concluded_iff.mp h.concluded s hs hop
  rw [Ledger.interrupted, if_neg hclosed.1]
  exact hclosed

theorem collect {protect : AppRecord → Bool} {picked : Uuid → Bool} (h : Past w app) :
    Past { w with ledger := w.ledger.collect protect picked } app :=
  ⟨concluded_iff.mpr fun r hr hop => concluded_iff.mp h.concluded r (List.mem_filter.mp hr).1 hop,
    h.drawn⟩

theorem noted (hn : Noted a w w') (h : Past w app) : Past w' app := by
  obtain ⟨f, hf, hsame, hledger⟩ := hn.ledger
  refine h.update hledger (Nat.le_of_eq hn.next.symm) fun r _ _ => ⟨(hf r).2.2.1, fun hclosed => ?_⟩
  rw [(hsame r).1]
  exact hclosed

end Past

namespace Settled

variable {w w' : Host} {ts ts' : List Task} {app op : Uuid}

theorem deletes_empty : ¬Deletes .empty app op := by
  rintro (⟨t, ht, -⟩ | ⟨r, hr, -⟩ | hproven)
  · exact absurd ht List.not_mem_nil
  · exact absurd hr List.not_mem_nil
  · cases hproven

theorem empty : Settled .empty [] where
  attended := .empty
  sound :=
    { readable := nofun
      owned := nofun
      distinct := .nil
      source := nofun
      proven := nofun
      single := .nil
      agree := fun _ _ _ hd => absurd hd deletes_empty
      absent := fun _ _ _ => rfl
      rows := .nil }
  past _ _ hd := absurd hd deletes_empty
  deleted := nofun
  ids := nofun

theorem claimed {q : Query} (h : Settled w ts) (hclaimed : Claimed q w w')
    (hattended : Attended w' ts') : Settled w' ts' := by
  have htidy := h.tidy.claimed hclaimed hattended
  have hpast : ∀ app, Past w app → Past w' app := fun app hp => hp.claimed h.attended.rows hclaimed
  have hids {fresh : Uuid} (hfresh : w.next ≤ fresh) : ∀ m ∈ w.live, m.id < fresh + 1 :=
    fun m hm => Nat.lt_of_lt_of_le (h.ids m hm) (Nat.le_succ_of_le hfresh)
  cases hclaimed with
  | same =>
    exact h.frame htidy rfl rfl (fun _ _ hp => .record hp) (fun _ _ hp _ => hp)
      (fun _ => .inl) hpast
      (fun _ => .inl) h.ids
  | drawn fresh hfresh =>
    exact h.frame htidy rfl rfl (fun _ _ hp => .record hp) (fun _ _ hp _ => hp)
      (fun _ => .inl) hpast
      (fun _ => .inl) (hids hfresh)
  | new fresh hnone hfresh hmentioned =>
    refine h.frame htidy rfl rfl (fun app op hp => .record ?_) (fun r _ hp _ => ?_) (fun _ => .inl)
      hpast (fun _ => .inl) (hids hfresh)
    · exact (Ledger.proven_append rfl).symm.trans hp
    · exact (Ledger.proven_append rfl).trans hp
  | reopened fresh r hfind hstatus hfresh =>
    refine h.frame htidy rfl rfl (fun app op hp => .record (Ledger.proven_of_reopen hp))
      (fun receipt _ hp _ => ?_) (fun _ => .inl) hpast (fun _ => .inl)
      (hids hfresh)
    have hne : r.operationId ≠ receipt.operation := by
      intro heq
      obtain ⟨s, hs, -, hop, hsucceeded⟩ := Ledger.status_of_proven hp
      have hsr := eq_of_key_eq h.attended.rows.operations hs (Ledger.find_some hfind).1
        (hop.trans heq.symm)
      rw [hsr, hstatus] at hsucceeded
      cases hsucceeded
    have hview := Ledger.view_update_of_op_ne h.attended.rows
      (f := fun r : AppRecord => { r with status := .pending }) (fun _ => ⟨rfl, rfl, rfl, rfl⟩)
      hfind hne (.app receipt.app)
    unfold Host.recordOf at hp ⊢
    rw [hview]
    exact hp

theorem interrupt (h : Settled w []) : Settled w.interrupt [] := by
  refine h.frame h.tidy.interrupt rfl rfl (fun app op hp => .record ?_) (fun r _ hp _ => ?_)
    (fun _ => .inl) (fun _ hp => hp.interrupt) (fun _ => .inl) h.ids
  · rw [← proven_interrupt]
    exact hp
  · rw [proven_interrupt]
    exact hp

theorem isLive_edit (w : Host) (app' : Uuid) (f : Metadata → Metadata) (app : Uuid) :
    (w.edit app' f).isLive app = w.isLive app := by
  unfold Host.isLive Host.edit
  rw [List.any_map]
  congr 1
  funext m
  dsimp only [Function.comp]
  split
  next heq => rw [heq]
  · rfl

theorem ids_edit {app' : Uuid} {f : Metadata → Metadata} (h : ∀ m ∈ w.live, m.id < w.next) :
    ∀ m ∈ (w.edit app' f).live, m.id < w.next := by
  intro m hm
  obtain ⟨s, hs, rfl⟩ := List.mem_map.mp hm
  split
  next heq => exact heq ▸ h s hs
  · exact h s hs

theorem change (h : Settled w ts) (b : Change) : Settled (w.change b) ts := by
  have htidy := h.tidy.change b
  cases b with
  | previews value =>
    exact h.frame htidy rfl rfl (fun _ _ hp => .record hp) (fun _ _ hp _ => hp) (fun _ => .inl)
      (fun _ hp => hp.congr rfl (Nat.le_refl _)) (fun _ => .inl) h.ids
  | edit metadata =>
    refine h.frame htidy rfl rfl (fun _ _ hp => .record hp) (fun _ _ hp _ => hp)
      (fun app hlive => .inl ?_)
      (fun _ hp => hp.congr rfl (Nat.le_refl _)) (fun _ => .inl) (ids_edit h.ids)
    rw [← isLive_edit w metadata.id fun _ => metadata]
    exact hlive
  | collect picked =>
    unfold Host.change at htidy ⊢
    dsimp only at htidy ⊢
    split
    next hok =>
      rw [hok] at htidy
      refine h.frame htidy rfl rfl (fun app op hp => .record ?_) (fun r hr hp hopen => ?_)
        (fun _ => .inl) (fun _ hp => hp.collect) (fun _ => .inl) h.ids
      · exact Ledger.proven_of_collect h.attended.rows hp
      · have hview : (w.ledger.collect w.protects fun op => picked.contains op).view (.app r.app)
            r.operation = w.ledger.view (.app r.app) r.operation := by
          refine Ledger.view_collect fun s _ hop => ?_
          have hprotects : w.protects s = true := by
            unfold Host.protects
            rw [Bool.or_eq_true]
            exact .inr (List.any_eq_true.mpr ⟨r, hr, by simp [hop, hopen]⟩)
          simp [Ledger.outlives, hprotects]
        unfold Host.recordOf at hp ⊢
        rw [hview]
        exact hp
    · exact h

theorem fine (h : Settled w ts) (hfine : Fine w w') : Settled w' ts where
  attended := h.attended.congr (by rw [hfine.kept]) (by rw [hfine.kept])
  sound := hfine.sound
  past app op hd := (h.past app op (hfine.fewer app op hd)).congr (by rw [hfine.kept])
    (Nat.le_of_eq (by rw [hfine.kept]))
  deleted app hmem := by
    have hmem : app ∈ w.deleted := by
      rw [hfine.kept] at hmem
      exact hmem
    rw [hfine.kept.isLive]
    exact ⟨(h.deleted app hmem).1, (h.deleted app hmem).2.congr (by rw [hfine.kept])
      (Nat.le_of_eq (by rw [hfine.kept]))⟩
  ids := by
    rw [hfine.kept]
    exact h.ids

/-! ### A handler -/

theorem proven_other {r : Receipt} (h : Settled w ts) (hholds : w.ledger.Holds a.claim)
    (hp : provenBy r.app (w.recordOf r.app r.operation) = true) : a.operation ≠ r.operation := by
  intro heq
  obtain ⟨s, hs, -, hop, hsucceeded⟩ := Ledger.status_of_proven hp
  obtain ⟨-, hpending, -⟩ := h.attended.rows.pending hholds hs (hop.trans heq.symm)
  rw [hsucceeded] at hpending
  cases hpending

theorem moved {tree : FileTree Node} {m : Metadata} {changed : List Uuid}
    (h : Settled w ts) (hm : w.metadataOf app = some m) (hconcluded : w.concluded app = true)
    (htidy : Tidy { w with
      live := w.live.filter fun m => m.id != app
      trash := ⟨app, op, tree⟩ :: w.trash
      changed } ts) :
    Settled { w with
      live := w.live.filter fun m => m.id != app
      trash := ⟨app, op, tree⟩ :: w.trash
      changed } ts := by
  have hthere : w.isLive app = true := isLive_of_metadataOf hm
  have hfirst : ∀ op', ¬Deletes w app op' := by
    intro op' hd
    rw [h.sound.absent app op' hd] at hthere
    cases hthere
  have hpast : Past w app := ⟨hconcluded, by
    have hid := h.ids m (List.mem_of_find?_eq_some hm)
    rw [metadataOf_id hm] at hid
    exact hid⟩
  have hdeletes : ∀ {app' op'}, Deletes { w with
      live := w.live.filter fun m => m.id != app
      trash := ⟨app, op, tree⟩ :: w.trash
      changed } app' op' → app' = app ∧ op' = op ∨ Deletes w app' op' := by
    rintro app' op' (⟨t, ht, happ, hop⟩ | ⟨r, hr, happ, hop⟩ | hproven)
    · rcases List.mem_cons.mp ht with rfl | ht
      · exact .inl ⟨happ.symm, hop.symm⟩
      · exact .inr (.tombstone t ht happ hop)
    · exact .inr (.receipt r hr happ hop)
    · exact .inr (.record hproven)
  have hgone : ∀ {app'}, app' = app ∨ w.isLive app' = false →
      (w.live.filter fun m => m.id != app).any (fun m => m.id == app') = false := by
    intro app' hcase
    rw [List.any_eq_false]
    intro m' hm' heq
    obtain ⟨hmem, hne⟩ := List.mem_filter.mp hm'
    have heq : m'.id = app' := by simpa using heq
    rcases hcase with rfl | hnot
    · simp [heq] at hne
    · exact List.any_eq_false.mp hnot m' hmem (by simpa using heq)
  exact {
    attended := htidy.attended
    sound := {
      readable := htidy.readable
      owned := htidy.owned
      distinct := List.pairwise_cons.mpr
        ⟨fun t ht heq => hfirst t.operation (.tombstone t ht heq.symm rfl), h.sound.distinct⟩
      source := h.sound.source
      proven := h.sound.proven
      single := h.sound.single
      agree := fun app' op1 op2 hd hd' => by
        rcases hdeletes hd, hdeletes hd' with ⟨⟨rfl, rfl⟩ | hold, ⟨happ, hop⟩ | hold'⟩
        · exact hop.symm
        · exact absurd hold' (hfirst _)
        · exact absurd (happ ▸ hold) (hfirst _)
        · exact h.sound.agree app' op1 op2 hold hold'
      absent := fun app' op' hd => by
        refine hgone ?_
        rcases hdeletes hd with ⟨heq, -⟩ | hd
        · exact .inl heq
        · exact .inr (h.sound.absent app' op' hd)
      rows := h.sound.rows }
    past := fun app' op' hd => by
      rcases hdeletes hd with ⟨rfl, -⟩ | hd
      · exact hpast.congr rfl (Nat.le_refl _)
      · exact (h.past app' op' hd).congr rfl (Nat.le_refl _)
    deleted := fun app' hmem =>
      ⟨hgone (.inr (h.deleted app' hmem).1), (h.deleted app' hmem).2.congr rfl (Nat.le_refl _)⟩
    ids := fun m' hm' => h.ids m' (List.mem_filter.mp hm').1 }

/-- A call of a handler; a directory that it moves belongs to an app whose creation has
ended. -/
theorem stirs (h : Settled w ts) (hstirs : Stirs a w w')
    (hapart : ∀ d ∈ underWay ts, a.claim.Apart d) (hholds : w.ledger.Holds a.claim)
    (hmoved : w'.trash ≠ w.trash → ∀ app, a.route = .app app → w.concluded app = true) :
    Settled w' ts := by
  have hnoted := hstirs.isNoted
  have htidy := h.tidy.stirs hstirs hapart hholds
  have hpast : ∀ app, Past w app → Past w' app := fun app hp => hp.noted hnoted
  have hnew : ∀ app op, provenBy app (w'.recordOf app op) = true → Deletes w app op := by
    intro app op hp
    rw [hnoted.recordOf] at hp
    exact .record hp
  have hkeep : ∀ r ∈ w.receipts, provenBy r.app (w.recordOf r.app r.operation) = true →
      r.finalized = false → provenBy r.app (w'.recordOf r.app r.operation) = true := by
    intro r _ hp _
    rw [hnoted.recordOf]
    exact hp
  cases hstirs with
  | created slug draft now hroute hfresh =>
    refine h.frame htidy rfl rfl hnew hkeep (fun app hlive => ?_) hpast (fun _ => .inl) ?_
    · simp only [Host.isLive, List.any_cons, Bool.or_eq_true] at hlive
      rcases hlive with heq | hlive
      · -- The new directory has the id of an operation that is under way.
        obtain rfl : a.operation = app := by simpa [Host.newMetadata] using heq
        exact .inr fun hp => not_concluded hholds hp.concluded
      · exact .inl hlive
    · intro m hm
      rcases List.mem_cons.mp hm with rfl | hm
      · obtain ⟨r, hr, hop, -⟩ := hholds
        have hlt := h.attended.rows.below r (Ledger.find_some hr).1
        rw [hop] at hlt
        exact hlt
      · exact h.ids m hm
  | drafted app | desired app | marked app =>
    refine h.frame htidy rfl rfl hnew hkeep (fun app' hlive => .inl ?_) hpast (fun _ => .inl)
      (ids_edit h.ids)
    exact (isLive_edit w app _ app').symm.trans hlive
  | moved app now rest m hroute hm hnone =>
    exact h.moved hm (hmoved (List.cons_ne_self _ _) app hroute) htidy
  | _ =>
    exact h.frame htidy rfl rfl hnew hkeep (fun _ => .inl) hpast (fun _ => .inl) h.ids

theorem markInterrupted (h : Settled w ts)
    (hapart : ∀ d ∈ underWay ts, a.claim.Apart d) (o : Outcome) :
    Settled (Host.act w (.markInterrupted a.route a.key) o).2 ts := by
  have htidy := h.tidy.markInterrupted hapart o
  cases ho : o.applied with
  | false =>
    have hsame : (Host.act w (.markInterrupted a.route a.key) o).2 = w := by simp [Host.act, ho]
    rw [hsame]
    exact h
  | true =>
    have hact : (Host.act w (.markInterrupted a.route a.key) o).2 =
        { w with ledger := w.ledger.markInterrupted a.route a.key } := by simp [Host.act, ho]
    rw [hact] at htidy ⊢
    have hsame := fun app op => Ledger.proven_markInterrupted (Body.unregisters app) w.ledger
      a.route (.app app) a.key op
    refine h.frame htidy rfl rfl (fun app op hp => .record ?_) (fun r _ hp _ => ?_) (fun _ => .inl)
      (fun app hp => ?_) (fun _ => .inl) h.ids
    · exact (hsame app op).symm.trans hp
    · exact (hsame r.app r.operation).trans hp
    · refine hp.update rfl (Nat.le_refl _) fun r _ _ =>
        ⟨(Ledger.advances_interrupted r).2.2.1, fun hclosed => ?_⟩
      rw [Ledger.interrupted, if_neg hclosed.1]
      exact hclosed

/-- The end of a handler: a response that proves a deletion comes after the move. -/
theorem finish {status : Nat} {body : Body} {code : Option String} {o : Outcome}
    (h : Settled w ts) (hholds : w.ledger.Holds a.claim)
    (htidy : Tidy (Host.act w (.finish a.route a.key status body code) o).2 ts)
    (hproves : ∀ app, a.route = .app app → status < 400 → w.hasTombstone app a.operation = true) :
    Settled (Host.act w (.finish a.route a.key status body code) o).2 ts := by
  cases ho : o.applied with
  | false =>
    have hsame : (Host.act w (.finish a.route a.key status body code) o).2 = w := by
      simp [Host.act, ho]
    rw [hsame]
    exact h
  | true =>
    have hact : (Host.act w (.finish a.route a.key status body code) o).2 =
        w.finish a.route a.key status body code := by simp [Host.act, ho]
    rw [hact] at htidy ⊢
    have hf := Ledger.advances_finished (κ := Route) (ρ := Request) status body code
    have hwrote : Wrote a (Ledger.finished status body code) w
        (w.finish a.route a.key status body code) := ⟨rfl, rfl⟩
    obtain ⟨own, hown, hop, -⟩ := id hholds
    have hdeletes : ∀ app, a.route = .app app → status < 400 → Deletes w app a.operation := by
      intro app hroute hok
      obtain ⟨t, ht, heq⟩ := List.any_eq_true.mp (hproves app hroute hok)
      simp only [Bool.and_eq_true, beq_iff_eq] at heq
      exact .tombstone t ht heq.1 heq.2
    refine h.frame htidy rfl rfl (fun app op hp => ?_) (fun r _ hp _ => ?_) (fun _ => .inl)
      (fun app hp => ?_) (fun app hmem => ?_) h.ids
    · by_cases hmine : op = a.operation
      · by_cases hroute : a.route = .app app
        · rw [hmine, hwrote.recordOf_own hf h.attended.rows hown hop hroute] at hp
          have hok : status < 400 := by
            by_cases hlt : status < 400
            · exact hlt
            · simp [provenBy, Ledger.proven, Ledger.finished, hlt] at hp
          rw [hmine]
          exact hdeletes app hroute hok
        · have hview := Ledger.view_update_of_route_ne (l := w.ledger) hf hroute a.key op
          exact .record (by
            unfold Host.recordOf
            rw [← hview]
            exact hp)
      · have hne : own.operationId ≠ op := fun heq => hmine (heq.symm.trans hop)
        rw [hwrote.recordOf hf h.attended.rows hown hne] at hp
        exact .record hp
    · have hne : own.operationId ≠ r.operation := hop ▸ h.proven_other hholds hp
      rw [hwrote.recordOf hf h.attended.rows hown hne]
      exact hp
    · refine hp.update hwrote.ledger (Nat.le_refl _) fun r _ _ => ⟨rfl, fun _ => ?_⟩
      simp only [Ledger.finished]
      split
      · exact ⟨fun h => (by cases h), fun h => (by cases h)⟩
      · exact ⟨fun h => (by cases h), fun h => (by cases h)⟩
    · unfold Host.finish at hmem
      split at hmem
      next id hroute =>
        split at hmem
        next hok =>
          rcases List.mem_cons.mp hmem with rfl | hmem
          · exact .inr ⟨_, hdeletes app hroute hok⟩
          · exact .inl hmem
        · exact .inl hmem
      · exact .inl hmem

end Settled

/-! ## The condition -/

/-- An app is moved to the trash only after the request that created it has ended. -/
def ends (w : Host) : (e : Call) → Choice e → Bool
  | .tombstone app _, .renamed _ _ _ => w.concluded app
  | _, _ => true

/-- `spares` and `ends` as a condition on the steps of a history. -/
def Final (w₀ : Host) (t : Option Task) (w : Host) (e : Call) (c : appService.world.Choice e) :
    Prop :=
  Spared w₀ t w e c ∧ ends w e c = true

variable {ts : List Task} {w₀ : Host}

instance (t : Option Task) (w : Host) (e : Call) (c : appService.world.Choice e) :
    Decidable (Final w₀ t w e c) := inferInstanceAs (Decidable (_ ∧ _))

theorem concluded_of_moved {e : Call} {c : Choice e} (hin : e.Within a)
    (hends : ends w e c = true) (htrash : (Host.act w e c).2.trash ≠ w.trash) (app : Uuid)
    (hroute : a.route = .app app) : w.concluded app = true := by
  cases e with
  | tombstone app' op =>
    have happ : app' = app := Route.app.inj (hin.2.symm.trans hroute)
    cases c with
    | failed | marked => exact absurd rfl htrash
    | renamed now rest synced =>
      rw [← happ]
      exact hends
  | _ => exact absurd (trash_act hin c nofun) htrash

/-- Every handler keeps the invariant up to a refusal, whether or not the attempt came with a
tombstone. -/
theorem settled_ends {rest : List Task} (free : Prop)
    (hapart : ∀ d ∈ underWay rest, a.claim.Apart d) :
    Ends a (Final w₀ (some (.attempt a))) (Settled · rest)
      (fun ph w => Settled w rest ∧ Unmoved free a ph w) (Settled · rest) where
  crashOpen _ _ hw := hw.1
  crashClosed _ hw := hw
  step ph w e c hc hin hw :=
    ⟨hw.1.stirs (hin.stirs w c) hapart hw.2.holds (concluded_of_moved hin hc.2), hw.2.step hin⟩
  escape ph w e c _ hw hesc := by
    rw [escapes_quiet hesc]
    exact hw.1
  interrupt ph w c _ hw := hw.1.markInterrupted hapart c
  again w c _ hw := hw.markInterrupted hapart c
  succeed ph w status body c hc hstatus htells hw := by
    have htidy := (tidy_ends (G := Final w₀ (some (.attempt a))) free hapart
      fun _ _ _ hc => spares_intact hc.1).succeed ph w status body c hc hstatus htells
      ⟨hw.1.tidy, hw.2⟩
    exact hw.1.finish hw.2.holds htidy fun app hroute _ => (htells app hroute).2.2
  finalize app w _ hw := by
    refine wp_weaken (finalizeAppUnregistration_spec (b := False) (.refl hw.sound) False.elim)
      (fun w e c hc => ⟨spares_intact hc.1, False.elim⟩) (fun w' hfine => hw.fine hfine)
      fun r w' hr => ?_
    cases r with
    | ok | error => exact hw.fine hr.1

/-- A handler keeps the invariant: a retry finds its tombstone, and any other attempt may be
refused until it moves the directory. -/
theorem handle_settled {i : Nat} (h : Settled w ts) (hget : ts[i]? = some (.attempt a)) :
    appWorld.wp (Final w (some (.attempt a))) (Settled · (ts.eraseIdx i)) (handle a)
      (fun _ => (Settled · (ts.eraseIdx i))) w := by
  have hapart := h.attended.others hget
  have hholds := h.attended.holds hget
  have hrest : Settled w (ts.eraseIdx i) :=
    ⟨h.attended.forget i, h.sound, h.past, h.deleted, h.ids⟩
  by_cases hmoved : w.tombstoned a.operation = true
  · obtain ⟨app, hroute⟩ := h.tidy.route_of_tombstoned hholds hmoved
    exact handle_retry (settled_ends False hapart)
      (fun _ _ _ hc => spares_passes hmoved hc.1) hroute
      ⟨hrest, hholds, False.elim⟩
  · refine (unmoved_walk (settled_ends _ hapart)
      fun w' status body code c _ hge hw' hholds' hnone =>
        hw'.finish hholds' (hw'.tidy.refuse hapart hholds' hnone) fun app hroute hlt =>
          ?_).handle_walk
      ⟨hrest, hholds, fun _ _ => ?_⟩
    · have := hge app hroute
      omega
    · simpa using hmoved

/-! ## Every history -/

theorem replayDeletion_spec (hw : Sound w) (app op : Uuid) :
    appWorld.wp (Housekeeping False) (Fine w) (replayDeletion app op) (fun _ => Fine w) w := by
  refine wp_attempt_bind (succeededAppTombstones_spec (.refl hw)) fun r w' hr => ?_
  cases r with
  | error err => exact hr.1
  | ok unfinished =>
    obtain ⟨hfine, rfl, -⟩ := hr
    refine wp_if (fun _ => ?_) fun _ => hfine
    refine wp_look rfl hfine fun published _ => ?_
    refine wp_if (fun _ => ?_) fun _ => hfine
    refine wp_attempt_bind (finalizeAppUnregistration_spec hfine False.elim) fun r w'' hr => ?_
    cases r with
    | ok | error => exact hr.1

theorem Settled.waits {ts' : List Task} (h : Settled w ts) (hattended : Attended w ts') :
    Settled w ts' :=
  ⟨hattended, h.sound, h.past, h.deleted, h.ids⟩

/-- Every step keeps what is deleted deleted, if the directory of an app is moved only by a
deletion whose outcome is open. -/
theorem settled_keeps (w₀ : Host) :
    appService.Keeps (Final w₀) (fun w _ => w = w₀ ∧ True) (fun _ _ => True) Settled where
  forget w ts i h := h.waits (h.attended.forget i)
  forgetAll w ts h := h.waits h.attended.forgetAll
  receive arrival w ts h := by
    refine wp_mono (receive_spec h.attended arrival) fun r w' hr => ?_
    obtain ⟨hattended, -, rfl | ⟨q, -, hclaimed⟩⟩ := hr
    · exact h.waits hattended
    · exact h.claimed hclaimed hattended
  serve w ts i t hget h hw := by
    have hrest : Settled w (ts.eraseIdx i) := h.waits (h.attended.forget i)
    have hhouse : ∀ w (e : Call) (c : Choice e), Final w₀ (some t) w e c →
      Housekeeping False w e c :=
      fun w e c hc => ⟨spares_intact hc.1, False.elim⟩
    cases t with
    | attempt a =>
      obtain ⟨rfl, -⟩ := hw
      refine wp_attempt_bind (P := fun _ w => Settled w (ts.eraseIdx i)) ?_ fun _ _ h => h
      exact handle_settled h hget
    | replayed app op =>
      refine wp_attempt_bind (P := fun _ w => Settled w (ts.eraseIdx i)) ?_ fun _ _ h => h
      exact wp_weaken (replayDeletion_spec h.sound app op) hhouse (fun _ => hrest.fine)
        fun _ _ => hrest.fine
    | reconcile =>
      refine wp_attempt_bind (P := fun _ w => Settled w (ts.eraseIdx i)) ?_ fun _ _ h => h
      refine wp_weaken (reconcile_spec (.refl h.sound)) hhouse (fun _ => hrest.fine)
        fun r w' hr => ?_
      cases r with
      | ok | error => exact hrest.fine hr.1
  boot w h := by
    have hfine : ∀ w', Fine w w' ∨ Fine w.interrupt w' → Settled w' [] := by
      intro w' hw'
      rcases hw' with hw' | hw'
      · exact h.fine hw'
      · exact h.interrupt.fine hw'
    refine wp_attempt_bind (P := fun _ w => Settled w []) ?_ fun _ _ h => h
    exact wp_weaken (startup_spec (b := False) h.sound)
      (fun w e c hc => ⟨spares_intact hc.1, False.elim⟩)
      hfine fun _ w' hw' => hfine w' hw'.1
  change w ts b _ h := h.change b

/-- Startup accepts the state, whatever the environment picks as long as every call works. -/
theorem Settled.starts (h : Settled w ts) {o : appWorld.Script}
    (ho : ∀ n e, works e (o n e) = true) : (appWorld.exec o 0 startup w).1 = .ok () := by
  have hworks : ∀ n w e, Housekeeping True w e (o n e) :=
    fun n _ e => ⟨intact_of_works _ (ho n e), fun _ => ho n e⟩
  exact ((wp_exec o 0 (startup_spec (b := True) h.sound)
    (meets_of_forall appWorld hworks 0 _ w)).2 trivial).1

/-- In every history in which apps are moved to the trash only after the requests that
created them have ended, and which spares its tombstones: an app whose deletion has
succeeded is not there, and startup succeeds. -/
theorem deleted_stays_deleted {steps : List appService.Step}
    (h : Along appService.step
      (fun s => appService.Allowed (Final s.world) (fun _ _ => True) (fun _ _ => True) s)
      ⟨.empty, []⟩ steps) :
    (∀ app ∈ (play appService.step ⟨.empty, []⟩ steps).world.deleted,
      (play appService.step ⟨.empty, []⟩ steps).world.isLive app = false) ∧
    ∀ o : appWorld.Script, (∀ n e, works e (o n e) = true) →
      (appWorld.exec o 0 startup (play appService.step ⟨.empty, []⟩ steps).world).1 = .ok () := by
  have hsettled := Service.invariant_from settled_keeps h Settled.empty
  exact ⟨fun app hmem => (hsettled.deleted app hmem).1, fun o ho => hsettled.starts ho⟩

/-- The creation ends before the app is deleted, and is sent again after a restart. -/
def createdThenDeleted : List appService.Step :=
  sampleHistory ++ [.serve 0 calm, .restart calm, .receive (.request sampleCreate) calm]

/-- Its response is replayed, and the app stays away. -/
theorem replayed_create_stays_deleted :
    let w := (play appService.step ⟨.empty, []⟩ createdThenDeleted).world
    w.deleted = [0] ∧ (∀ app ∈ w.deleted, w.isLive app = false) ∧
      (appWorld.exec calm 0 startup w).1 = .ok () :=
  have h := @deleted_stays_deleted createdThenDeleted (by decide +kernel)
  ⟨by decide +kernel, h.1, h.2 calm fun _ e => by cases e <;> rfl⟩

/-- The process dies between the rename of the new directory and the record of the creation;
the app is then deleted, and the creation is sent again under its own key. -/
def interruptedThenDeleted : List appService.Step :=
  [.receive (.request sampleCreate) calm, .giveUp 0 4 calm, .restart calm,
    .change (.previews [samplePreview]), .receive (.request (sampleDelete "session")) calm,
    .serve 0 calm, .receive (.request sampleCreate) calm, .serve 0 calm]

/-- The app is back, and no startup accepts that. -/
theorem resumed_create_comes_back :
    let w := (play appService.step ⟨.empty, []⟩ interruptedThenDeleted).world
    w.deleted = [0] ∧ w.isLive 0 = true ∧ (appWorld.exec calm 0 startup w).1.isOk = false := by
  decide +kernel

/-- In the same histories, crashes and failed startups included: a startup in which every call
works finishes every deletion whose success is recorded. Nothing is left of the app in the
trash, and its receipt is finalized. -/
theorem startup_finishes_deletions {steps : List appService.Step}
    (h : Along appService.step
      (fun s => appService.Allowed (Final s.world) (fun _ _ => True) (fun _ _ => True) s)
      ⟨.empty, []⟩ steps)
    {o : appWorld.Script} (ho : ∀ n e, works e (o n e) = true) :
    let w := (play appService.step ⟨.empty, []⟩ steps).world
    ∀ app op, provenBy app (w.recordOf app op) = true →
      Finished (appWorld.exec o 0 startup w).2 app op := by
  intro w
  have hsound := (Service.invariant_from settled_keeps h Settled.empty).sound
  have hworks : ∀ n w e, Housekeeping True w e (o n e) :=
    fun n _ e => ⟨intact_of_works _ (ho n e), fun _ => ho n e⟩
  exact ((wp_exec o 0 (startup_spec (b := True) hsound)
    (meets_of_forall appWorld hworks 0 _ w)).2 trivial).2

/-- The process dies after the success of a deletion is recorded and before its tombstone is
removed. -/
theorem recorded_deletion_finished :
    let w := (play appService.step ⟨.empty, []⟩ (sampleHistory ++ [.giveUp 0 15 calm])).world
    w.hasTombstone 0 1 = true ∧ Finished (appWorld.exec calm 0 startup w).2 0 1 :=
  ⟨by decide +kernel, startup_finishes_deletions (by decide +kernel)
    (fun _ e => by cases e <;> rfl) 0 1 (by decide +kernel)⟩

end SoloDock.Apps
