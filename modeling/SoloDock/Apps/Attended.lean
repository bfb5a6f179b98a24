import SoloDock.Apps.Finalize
import SoloDock.Apps.Walk
import SoloDock.Mutation.Rows

/-!
# The ledger under the application service

What every history keeps, whatever fails: the rows of the ledger are in order, and every
attempt that waits has a pending record of its own (`Attended`). The rest of the module
says what the steps of a history do to the ledger: a claim (`Claimed`), a call of a
handler (`Within.ledger`), a call of the finalizer (`Housekeeps`), which leaves the ledger
alone.
-/

namespace SoloDock.Apps

open Lib Mutation
open Lib.World

/-! ## Attempts under way -/

/-- The row a task works for. -/
def Task.claim : Task → Option AppClaim
  | .attempt a => some a.claim
  | .replayed _ _ => none
  | .reconcile => none

def underWay (ts : List Task) : List AppClaim := ts.filterMap Task.claim

structure Attended (w : Host) (ts : List Task) : Prop where
  rows : w.ledger.Rows w.next
  under : w.ledger.Exclusive (underWay ts)

variable {ts : List Task} {a : Attempt} {w' : Host}

namespace Attended

variable {w : Host}

theorem empty : Attended .empty [] := ⟨.nil, ⟨nofun, .nil⟩⟩

section

variable (h : Attended w ts)

include h

theorem forget (i : Nat) : Attended w (ts.eraseIdx i) :=
  ⟨h.rows, h.under.forget ((List.eraseIdx_sublist ts i).filterMap _)⟩

theorem forgetAll : Attended w [] := ⟨h.rows, ⟨nofun, .nil⟩⟩

variable {i : Nat}

theorem holds (hget : ts[i]? = some (.attempt a)) : w.ledger.Holds a.claim :=
  h.under.holds a.claim (List.mem_filterMap.mpr ⟨_, List.mem_of_getElem? hget, rfl⟩)

theorem others (hget : ts[i]? = some (.attempt a)) :
    ∀ d ∈ underWay (ts.eraseIdx i), a.claim.Apart d :=
  h.under.among (f := Task.claim) (a := .attempt a) rfl hget

theorem update {c : AppClaim} {f : AppRecord → AppRecord}
    (hledger : w'.ledger = w.ledger.update c.route c.key f) (hnext : w'.next = w.next)
    (hf : Ledger.Advances f) (hne : ∀ d ∈ underWay ts, c.Apart d) : Attended w' ts := by
  refine ⟨?_, ?_⟩
  · rw [hledger, hnext]
    exact h.rows.update hf
  · rw [hledger]
    exact h.under.update hf hne

theorem congr (hledger : w'.ledger = w.ledger) (hnext : w'.next = w.next) : Attended w' ts := by
  refine ⟨?_, ?_⟩
  · rw [hledger, hnext]
    exact h.rows
  · rw [hledger]
    exact h.under

theorem idle {t : Task} (ht : t.claim = none) : Attended w (ts ++ [t]) := by
  refine ⟨h.rows, ?_⟩
  have hsame : underWay (ts ++ [t]) = underWay ts := by
    simp [underWay, List.filterMap_append, ht]
  rw [hsame]
  exact h.under

theorem collect (protect : AppRecord → Bool) (picked : Uuid → Bool) :
    Attended { w with ledger := w.ledger.collect protect picked } ts :=
  ⟨h.rows.collect protect picked, fun c hc => (h.under.holds c hc).collect, h.under.apart⟩

end

theorem interrupt (h : Attended w []) : Attended w.interrupt [] :=
  ⟨h.rows.interruptPending, ⟨nofun, .nil⟩⟩

end Attended

/-! ## A claim -/

/-- What a claim leaves: nothing changed, a new row, an interrupted row reopened, or an
identifier drawn for nothing. -/
inductive Claimed (q : Query) (w : Host) : Host → Prop where
  | same : Claimed q w w
  | new (fresh : Uuid) (hnone : w.ledger.find q.request.route q.key = none)
    (hfresh : w.next ≤ fresh)
      (hmentioned : Host.mentioned q.request ≤ fresh) :
      Claimed q w { w with
        ledger := w.ledger ++
          [⟨q.request.route, q.key, q.request, fresh, .pending, none, none, none⟩]
        next := fresh + 1 }
  | reopened (fresh : Uuid) (r : AppRecord) (hfind : w.ledger.find q.request.route q.key = some r)
      (hstatus : r.status = .interrupted) (hfresh : w.next ≤ fresh) :
      Claimed q w { w with
        ledger := w.ledger.update q.request.route q.key fun r => { r with status := .pending }
        next := fresh + 1 }
  | drawn (fresh : Uuid) (hfresh : w.next ≤ fresh) : Claimed q w { w with next := fresh + 1 }

theorem claimed_claim (w : Host) (q : Query) (o : Outcome) (skip : Nat) :
    Claimed q w (w.claim q o skip).2 := by
  unfold Host.claim
  dsimp only
  rcases Ledger.answered_cases o with heq | ⟨result, ledger, hclaim, heq⟩
  · rw [heq]
    exact .same
  · rw [heq]
    have hfresh : w.next ≤ max w.next (Host.mentioned q.request) + skip :=
      Nat.le_trans (Nat.le_max_left _ _) (Nat.le_add_right _ _)
    have hmentioned : Host.mentioned q.request ≤ max w.next (Host.mentioned q.request) + skip :=
      Nat.le_trans (Nat.le_max_right _ _) (Nat.le_add_right _ _)
    rcases Ledger.claim_cases hclaim with ⟨hnone, -, rfl⟩ | ⟨r, hr, -, hstatus, -, rfl⟩ |
      ⟨_, _, _, -, rfl⟩
    · exact .new _ hnone hfresh hmentioned
    · exact .reopened _ r hr hstatus hfresh
    · exact .drawn _ hfresh

variable {w : Host} {f : AppRecord → Option AppRecord}

/-- Every first attempt among `ts'` waited among `ts`, or has an operation drawn after `w`. -/
def Drawn (w : Host) (ts ts' : List Task) : Prop :=
  ∀ a, .attempt a ∈ ts' → a.resumed = false → .attempt a ∈ ts ∨ w.next ≤ a.operation

theorem Drawn.sublist {ts' : List Task} (h : ts'.Sublist ts) : Drawn w ts ts' :=
  fun _ ha _ => .inl (h.subset ha)

theorem Drawn.append {t : Task}
    (h : ∀ a, t = .attempt a → a.resumed = false → w.next ≤ a.operation) :
    Drawn w ts (ts ++ [t]) := by
  intro a ha hfirst
  rcases List.mem_append.mp ha with ha | ha
  · exact .inl ha
  · exact .inr (h a (List.mem_singleton.mp ha).symm hfirst)

/-- A claim keeps the ledger attended, with the attempt it grants; a new operation is drawn
after the world. -/
theorem Attended.claim (h : Attended w ts) (q : Query) (o : Outcome) (skip : Nat) :
    Attended (w.claim q o skip).2 ts ∧ ∀ op resumed,
      (w.claim q o skip).1 = .ok (if resumed then .resume op else .new op) →
      Attended (w.claim q o skip).2 (ts ++ [.attempt ⟨q, op, resumed⟩]) ∧
        (resumed = false → w.next ≤ op) := by
  refine Ledger.answered_rule (I := (Attended · ts)) (J := fun op resumed w' =>
    Attended w' (ts ++ [.attempt ⟨q, op, resumed⟩]) ∧ (resumed = false → w.next ≤ op)) o h
    fun result ledger hclaim => ?_
  have hfresh : w.next ≤ max w.next (Host.mentioned q.request) + skip :=
    Nat.le_trans (Nat.le_max_left _ _) (Nat.le_add_right _ _)
  have hrows := h.rows.claim hfresh hclaim
  refine ⟨⟨hrows, h.under.claimed hclaim⟩, fun op resumed hres =>
    ⟨⟨hrows, ?_⟩, fun hfirst => ?_⟩⟩
  · rw [underWay, List.filterMap_append]
    exact h.under.claim hclaim (Ledger.granted_cases hres)
  · subst hfirst
    obtain rfl : result = .new op := hres
    rw [Ledger.new_eq_fresh hclaim]
    exact hfresh

theorem receive_spec {G : Host → (e : Call) → Choice e → Prop}
    (h : Attended w ts) (arrival : Arrival) : appWorld.wp G (fun _ => True) (receive arrival)
      (fun r w' => Attended w' (ts ++ (Service.value r).toList) ∧
        Drawn w ts (ts ++ (Service.value r).toList) ∧
        (w' = w ∨ ∃ q, arrival = .request q ∧ Claimed q w w')) w := by
  cases arrival with
  | reconcile =>
    exact ⟨h.idle rfl, .append nofun, .inl rfl⟩
  | request q =>
    refine wp_call fun (o, skip) _ => ⟨trivial, ?_⟩
    obtain ⟨hsame, hadd⟩ := h.claim q o skip
    have hclaimed := claimed_claim w q o skip
    have hnone : Attended (w.claim q o skip).2 (ts ++ []) ∧ Drawn w ts (ts ++ []) := by
      rw [List.append_nil]
      exact ⟨hsame, .sublist (.refl ts)⟩
    have hfirst {op : Uuid} {resumed : Bool} (hdrawn : resumed = false → w.next ≤ op) :
        Drawn w ts (ts ++ [.attempt ⟨q, op, resumed⟩]) := by
      refine .append fun a ha hnew => ?_
      cases ha
      exact hdrawn hnew
    have hact : appWorld.act w (Call.claim q) (o, skip) = w.claim q o skip := rfl
    rw [hact]
    split
    next op hres =>
      obtain ⟨hattended, hdrawn⟩ := hadd op false hres
      exact ⟨hattended, hfirst hdrawn, .inr ⟨q, rfl, hclaimed⟩⟩
    next op hres =>
      obtain ⟨hattended, hdrawn⟩ := hadd op true hres
      exact ⟨hattended, hfirst hdrawn, .inr ⟨q, rfl, hclaimed⟩⟩
    next op _ _ hres =>
      split
      · exact ⟨hsame.idle rfl, .append nofun, .inr ⟨q, rfl, hclaimed⟩⟩
      · exact ⟨hnone.1, hnone.2, .inr ⟨q, rfl, hclaimed⟩⟩
    · exact ⟨hnone.1, hnone.2, .inr ⟨q, rfl, hclaimed⟩⟩

/-! ## The calls of a handler -/

theorem marks (hf : ∀ r s, f r = some s → ∃ effect, s = { r with effect }) :
    Ledger.Advances (fun r => (f r).getD r) ∧
      ∀ r, ((f r).getD r).status = r.status ∧ ((f r).getD r).response = r.response := by
  have hrow : ∀ r, ∃ effect, (f r).getD r = { r with effect } := by
    intro r
    cases hr : f r with
    | none => exact ⟨r.effect, rfl⟩
    | some s => exact hf r s hr
  refine ⟨fun r => ?_, fun r => ?_⟩
  · obtain ⟨effect, heq⟩ := hrow r
    dsimp only
    rw [heq]
    exact ⟨rfl, rfl, rfl, rfl⟩
  · obtain ⟨effect, heq⟩ := hrow r
    rw [heq]
    exact ⟨rfl, rfl⟩

theorem startEffect_marks (containerId startedAt : Option String) (r s : AppRecord)
    (h : Host.startEffect containerId startedAt r = some s) : ∃ effect, s = { r with effect } := by
  unfold Host.startEffect at h
  split at h
  · exact ⟨_, (Option.some.inj h).symm⟩
  · cases h

theorem observeEffect_marks (containerId : String) (r s : AppRecord)
    (h : Host.observeEffect containerId r = some s) : ∃ effect, s = { r with effect } := by
  obtain ⟨m, -, h⟩ := Option.bind_eq_some_iff.mp h
  split at h
  · exact ⟨_, (Option.some.inj h).symm⟩
  · cases h

theorem completeEffect_marks (r s : AppRecord) (h : Host.completeEffect r = some s) :
    ∃ effect, s = { r with effect } := by
  obtain ⟨m, -, h⟩ := Option.bind_eq_some_iff.mp h
  split at h
  · exact ⟨_, (Option.some.inj h).symm⟩
  · cases h

/-- What a call before the end of a handler can do. -/
inductive Stirs (a : Attempt) (w : Host) : Host → Prop where
  | nothing : Stirs a w w
  | noted (f : AppRecord → Option AppRecord)
      (hf : ∀ r s, f r = some s → ∃ effect, s = { r with effect }) :
      Stirs a w { w with ledger := w.ledger.update a.route a.key fun r => (f r).getD r }
  | consumed (token : String) : Stirs a w (w.consumePreview token)
  | composed (app : Uuid) (hroute : a.route = .app app ∨ ∃ action, a.route = .action app action) :
      Stirs a w { w with changed := a.operation :: w.changed }
  | created (slug : String) (draft : Option Draft) (now : Instant)
      (hroute : a.route = .apps ∨ a.route = .fromPreset) (hnew : w.isLive a.operation = false) :
      Stirs a w { w with
        live := Host.newMetadata slug a.operation draft now :: w.live
        published := a.operation :: w.published }
  | drafted (app : Uuid) (draft : Draft) (now : Instant) (m : Metadata)
      (hroute : a.route = .draft app) (hm : w.metadataOf app = some m) :
      Stirs a w { w.edit app (Host.withDraft a.operation draft now) with
        published := a.operation :: w.published }
  | desired (app : Uuid) (desired : Deploy.DesiredState) (now : Instant) (m : Metadata)
      (action : LifecycleAction) (hreq : a.query.request = .lifecycle app action)
      (hm : w.metadataOf app = some m) :
      Stirs a w { w.edit app (Host.withDesired desired a.operation now) with
        changed := if m.desiredState = desired then w.changed else a.operation :: w.changed }
  | marked (app : Uuid) (now : Instant) (hroute : a.route = .app app) :
      Stirs a w (w.edit app (Host.withMark a.operation now))
  | moved (app : Uuid) (now : Instant) (rest : FileTree Node) (m : Metadata)
      (hroute : a.route = .app app) (hm : w.metadataOf app = some m)
      (hnone : w.hasTombstone app a.operation = false) :
      Stirs a w { w with
        live := w.live.filter fun m => m.id != app
        trash := ⟨app, a.operation,
          Host.tombstoneTree app a.operation (Host.withMark a.operation now m) rest⟩ :: w.trash
        changed := a.operation :: w.changed }

theorem Stirs.mark
    (hf : ∀ r s, f r = some s → ∃ effect, s = { r with effect }) (w : Host) (o : Outcome) :
    Stirs a w (w.mark a.route a.key f o).2 := by
  unfold Host.mark
  split
  · exact .nothing
  · dsimp only
    split
    · exact .noted f hf
    · exact .nothing

theorem Stirs.tombstone {app : Uuid} (hroute : a.route = .app app) (w : Host)
    (c : TombstoneChoice) : Stirs a w (w.tombstone app a.operation c).2 := by
  cases c with
  | failed => exact .nothing
  | marked now => exact .marked app now hroute
  | renamed now rest synced =>
    unfold Host.tombstone
    dsimp only
    split
    · exact .nothing
    next m hm =>
      split
      · exact .marked app now hroute
      next hnone => exact .moved app now rest m hroute hm (by simpa using hnone)

theorem Call.Within.stirs {e : Call} (h : e.Within a) (w : Host) (c : Choice e) :
    Stirs a w (Host.act w e c).2 := by
  cases e with
  | markEffectStarted route key containerId startedAt =>
    obtain ⟨rfl, rfl⟩ := h
    exact .mark (startEffect_marks containerId startedAt) w c
  | markEffectObserved route key containerId =>
    obtain ⟨rfl, rfl⟩ := h
    exact .mark (observeEffect_marks containerId) w c
  | markEffectCompleted route key =>
    obtain ⟨rfl, rfl⟩ := h
    exact .mark completeEffect_marks w c
  | createApp slug op draft =>
    obtain ⟨rfl, hroute⟩ := h
    obtain ⟨o, now⟩ := c
    show Stirs a w (w.createApp slug a.operation draft o now).2
    unfold Host.createApp
    split
    · exact .nothing
    · split
      · exact .nothing
      next hnew => exact .created slug draft now hroute (by simpa using hnew)
  | updateDraft app expected op draft =>
    obtain ⟨rfl, hroute⟩ := h
    obtain ⟨o, conflict, now⟩ := c
    show Stirs a w (w.updateDraft app expected a.operation draft o conflict now).2
    unfold Host.updateDraft
    split
    · exact .nothing
    next m hm =>
      dsimp only
      split
      · exact .nothing
      · split
        · exact .nothing
        · dsimp only
          split
          · exact .drafted app draft now m hroute hm
          · exact .nothing
  | setDesiredState app desired op =>
    obtain ⟨rfl, action, hreq⟩ := h
    obtain ⟨o, now⟩ := c
    show Stirs a w (w.setDesiredState app desired a.operation o now).2
    unfold Host.setDesiredState
    split
    · exact .nothing
    next m hm =>
      dsimp only
      split
      · exact .desired app desired now m action hreq hm
      · exact .nothing
  | tombstone app op =>
    obtain ⟨rfl, hroute⟩ := h
    exact .tombstone hroute w c
  | composeRun action app op =>
    obtain ⟨rfl, hroute⟩ := h
    obtain ⟨changes, answer⟩ := c
    cases changes with
    | true => exact .composed app hroute
    | false => exact .nothing
  | consumePreview token =>
    cases c with
    | ok => exact .consumed token
    | failed applied =>
      cases applied with
      | true => exact .consumed token
      | false => exact .nothing
  | _ => first | exact h.elim | exact .nothing

/-- The attempt's own row keeps its status and its response. -/
structure Noted (a : Attempt) (w w' : Host) : Prop where
  next : w'.next = w.next
  ledger : ∃ f : AppRecord → AppRecord, Ledger.Advances f ∧
    (∀ r, (f r).status = r.status ∧ (f r).response = r.response) ∧
    w'.ledger = w.ledger.update a.route a.key f

theorem Noted.same (hledger : w'.ledger = w.ledger) (hnext : w'.next = w.next) : Noted a w w' := by
  refine ⟨hnext, id, fun _ => ⟨rfl, rfl, rfl, rfl⟩, fun _ => ⟨rfl, rfl⟩, ?_⟩
  rw [hledger, Ledger.update]
  simp

theorem Stirs.isNoted (h : Stirs a w w') : Noted a w w' := by
  cases h with
  | noted f hf => exact ⟨rfl, _, (marks hf).1, (marks hf).2, rfl⟩
  | _ => exact .same rfl rfl

namespace Noted

variable {w w' : Host}

theorem attended (hn : Noted a w w') (h : Attended w ts)
    (hne : ∀ d ∈ underWay ts, a.claim.Apart d) : Attended w' ts := by
  obtain ⟨f, hf, -, hledger⟩ := hn.ledger
  exact h.update (c := a.claim) hledger hn.next hf hne

theorem holds (hn : Noted a w w') (h : w.ledger.Holds a.claim) : w'.ledger.Holds a.claim := by
  obtain ⟨f, hf, hsame, hledger⟩ := hn.ledger
  obtain ⟨r, hr, hop, hreq, hpending⟩ := h
  have hr : w.ledger.find a.route a.key = some r := hr
  refine ⟨f r, ?_, ?_, ?_, ?_⟩
  · show w'.ledger.find a.route a.key = some (f r)
    rw [hledger, Ledger.find_update_self hf, hr]
    rfl
  · rw [(hf r).2.2.1, hop]
  · rw [(hf r).2.2.2, hreq]
  · rw [(hsame r).1, hpending]

theorem recordOf (hn : Noted a w w') (app op : Uuid) : w'.recordOf app op = w.recordOf app op := by
  obtain ⟨f, hf, hsame, hledger⟩ := hn.ledger
  unfold Host.recordOf
  rw [hledger]
  exact Ledger.view_update_of_same hf hsame

end Noted

/-! ## The end of a handler -/

/-- The attempt's own row was updated, and nothing else of the ledger. -/
structure Wrote (a : Attempt) (f : AppRecord → AppRecord) (w w' : Host) : Prop where
  next : w'.next = w.next
  ledger : w'.ledger = w.ledger.update a.route a.key f

variable {f : AppRecord → AppRecord} {app : Uuid} {e : Call} {c : Choice e}

theorem Wrote.attended (hwrote : Wrote a f w w') (hf : Ledger.Advances f) (h : Attended w ts)
    (hne : ∀ d ∈ underWay ts, a.claim.Apart d) : Attended w' ts :=
  h.update (c := a.claim) hwrote.ledger hwrote.next hf hne

theorem Wrote.recordOf {op : Uuid}
    (hwrote : Wrote a f w w') (hf : Ledger.Advances f) (hrows : w.ledger.Rows w.next)
    {r : AppRecord} (hr : w.ledger.find a.route a.key = some r) (hne : r.operationId ≠ op) :
    w'.recordOf app op = w.recordOf app op := by
  unfold Host.recordOf
  rw [hwrote.ledger]
  exact Ledger.view_update_of_op_ne hrows hf hr hne _

theorem Wrote.recordOf_own
    (hwrote : Wrote a f w w') (hf : Ledger.Advances f) (hrows : w.ledger.Rows w.next)
    {r : AppRecord} (hr : w.ledger.find a.route a.key = some r) (hop : r.operationId = a.operation)
    (hroute : a.route = .app app) :
    w'.recordOf app a.operation = some ⟨(f r).status, (f r).response⟩ := by
  have hview := Ledger.view_update_self hrows hf hr
  rw [hop, hroute] at hview
  unfold Host.recordOf
  rw [hwrote.ledger, hroute]
  exact hview

theorem wrote_finish (a : Attempt) (w : Host) (status : Nat) (body : Body) (code : Option String)
    (o : Outcome) : (Host.act w (.finish a.route a.key status body code) o).2 = w ∨
      Wrote a (Ledger.finished status body code) w
        (Host.act w (.finish a.route a.key status body code) o).2 := by
  cases ho : o.applied with
  | true =>
    exact .inr ⟨by simp [Host.act, ho, Host.finish],
      by simp [Host.act, ho, Host.finish, Ledger.finish]⟩
  | false => exact .inl (by simp [Host.act, ho])

theorem wrote_markInterrupted (a : Attempt) (w : Host) (o : Outcome) :
    (Host.act w (.markInterrupted a.route a.key) o).2 = w ∨
      Wrote a Ledger.interrupted w (Host.act w (.markInterrupted a.route a.key) o).2 := by
  cases ho : o.applied with
  | true => exact .inr ⟨by simp [Host.act, ho], by simp [Host.act, ho, Ledger.markInterrupted]⟩
  | false => exact .inl (by simp [Host.act, ho])

/-- The calls that write app directories. -/
def Call.Writes : Call → Prop
  | .createApp _ _ _ => True
  | .updateDraft _ _ _ _ => True
  | .setDesiredState _ _ _ => True
  | .tombstone _ _ => True
  | _ => False

theorem live_mark (w : Host) (route : Route) (key : String) {f : AppRecord → Option AppRecord}
    (o : Outcome) : (w.mark route key f o).2.live = w.live := by
  unfold Host.mark
  split
  · rfl
  · dsimp only
    split <;> rfl

theorem live_act (w : Host) {e : Call} (c : Choice e) (h : ¬e.Writes) :
    (Host.act w e c).2.live = w.live := by
  cases e with
  | createApp | updateDraft | setDesiredState | tombstone => exact absurd trivial h
  | claim q =>
    show (w.claim q c.1 c.2).2.live = w.live
    generalize hw : (w.claim q c.1 c.2).2 = w'
    cases hw ▸ claimed_claim w q c.1 c.2 with
    | _ => rfl
  | markEffectStarted route key | markEffectObserved route key | markEffectCompleted route key =>
    exact live_mark w route key c
  | removeTombstone app op =>
    show (w.removeTombstone app op c).2.live = w.live
    rw [removeTombstone_kept w app op c]
  | insertReceipt app op =>
    show (if c.applied then w.insertReceipt app op else w).live = w.live
    rw [insertReceipt_kept w app op]
    split <;> rfl
  | finish route key status body code =>
    show (if c.applied then w.finish route key status body code else w).live = w.live
    split <;> rfl
  | markInterrupted route key =>
    show (if c.applied then { w with ledger := w.ledger.markInterrupted route key } else w).live = _
    split <;> rfl
  | interruptPending =>
    show (if c.applied then { w with ledger := w.ledger.interruptPending } else w).live = _
    split <;> rfl
  | composeRun action app op =>
    show (if c.1 then { w with changed := op :: w.changed } else w).live = w.live
    split <;> rfl
  | consumePreview token =>
    show (if c.applied then w.consumePreview token else w).live = w.live
    split <;> rfl
  | markFinalized app op =>
    show (if c.applied then w.markFinalized app op else w).live = w.live
    split <;> rfl
  | _ => rfl

/-! ## Checks -/

theorem refusal_quiet {binds : List Deploy.BindIdentity} {s : Nat}
    (h : refusal binds a w e (Host.act w e c).1 = some s) :
    (Host.act w e c).2 = { w with previews := (Host.act w e c).2.previews } := by
  cases e with
  | consumePreview token =>
    cases c with
    | ok => rfl
    | failed applied => cases applied <;> rfl
  | claim => cases h
  | _ => first | rfl | cases h

theorem escapes_quiet (h : escapes a w e (Host.act w e c).1 = true) : (Host.act w e c).2 = w := by
  cases e with
  | claim => cases h
  | _ => first | rfl | cases h

/-! ## The calls of the finalizer -/

/-- What the finalizer asks for, wherever it runs. -/
def Call.Housekeeps : Call → Prop
  | .readTombstoneMetadata _ _ => True
  | .tombstones => True
  | .syncUnregisteredApp _ => True
  | .removeTombstone _ _ => True
  | .appDirectoryExists _ => True
  | .recordOf _ _ => True
  | .succeededDeletions => True
  | .receipts => True
  | .receiptOf _ => True
  | .insertReceipt _ _ => True
  | .markFinalized _ _ => True
  | .publishDeletion _ => True
  | _ => False

section Only

open Prog

theorem only_fromStore {p : Call → Prop} (r : Except StoreError α) :
    (fromStore r).Only p := only_orElse r _

theorem validateEach_only : ∀ l, (validateEach l).Only Call.Housekeeps
  | [] => trivial
  | (app, op) :: rest => by
    refine only_call trivial fun row => only_orElse_bind fun row => ?_
    refine only_orElse_bind fun succeeded => ?_
    exact only_bind (validateEach_only rest) fun _ => trivial

theorem validateAppTombstones_only : validateAppTombstones.Only Call.Housekeeps :=
  only_call trivial fun r => only_bind (only_fromStore r) validateEach_only

theorem pendingEach_only : ∀ l, (pendingEach l).Only Call.Housekeeps
  | [] => trivial
  | receipt :: rest => by
    refine only_ensure_bind fun _ => only_call trivial fun row => ?_
    refine only_orElse_bind fun row => only_ensure_bind fun _ => ?_
    exact only_bind (pendingEach_only rest) fun _ => trivial

theorem pending_only : pending.Only Call.Housekeeps :=
  only_call trivial fun _ => only_orElse_bind fun _ => pendingEach_only _

theorem succeededAppTombstones_only : succeededAppTombstones.Only Call.Housekeeps :=
  only_bind validateAppTombstones_only fun _ => only_bind pending_only fun _ => trivial

theorem preserveProof_only (app op : Uuid) : (preserveProof app op).Only Call.Housekeeps := by
  refine only_call trivial fun r => only_bind (only_fromStore r) fun _ => ?_
  refine only_call trivial fun r => only_orElse_bind fun row => ?_
  refine only_ensure_bind fun _ => only_call trivial fun r => ?_
  refine only_orElse_bind fun _ => only_call trivial fun r => ?_
  exact only_orElse_bind fun receipt => only_ensure _ _

theorem markFinalized_only (app op : Uuid) : (markFinalized app op).Only Call.Housekeeps := by
  refine only_call trivial fun r => only_bind (only_fromStore r) fun _ => ?_
  refine only_call trivial fun r => only_bind (only_fromStore r) fun tombstones => ?_
  refine only_ensure_bind fun _ => only_call trivial fun r => ?_
  exact only_orElse_bind fun changed => only_ensure _ _

theorem syncTombstone_only (app op : Uuid) : (syncTombstone app op).Only Call.Housekeeps :=
  only_call trivial fun r => only_bind (only_fromStore r) fun _ => only_call trivial only_fromStore

theorem finalizeTombstone_only (app op : Uuid) : (finalizeTombstone app op).Only Call.Housekeeps :=
  only_call trivial fun r => only_bind (only_fromStore r) fun _ => only_call trivial only_fromStore

theorem clearTombstone_only (app op : Uuid) {has : Bool} :
    (clearTombstone app op has).Only Call.Housekeeps := by
  unfold clearTombstone
  split
  · refine only_bind (syncTombstone_only app op) fun _ => ?_
    exact only_bind (preserveProof_only app op) fun _ => finalizeTombstone_only app op
  · exact preserveProof_only app op

theorem finalizeAppUnregistration_only (app op : Uuid) :
    (finalizeAppUnregistration app op).Only Call.Housekeeps := by
  refine only_bind succeededAppTombstones_only fun succeeded => ?_
  refine only_ensure_bind fun _ => only_call trivial fun r => ?_
  refine only_bind (only_fromStore r) fun tombstones => ?_
  exact only_bind (clearTombstone_only app op) fun _ => markFinalized_only app op

theorem finalizeEach_only : ∀ l, (finalizeEach l).Only Call.Housekeeps
  | [] => trivial
  | (app, op) :: rest =>
    only_bind (finalizeAppUnregistration_only app op) fun _ => finalizeEach_only rest

theorem finalizeSucceededTombstones_only : finalizeSucceededTombstones.Only Call.Housekeeps :=
  only_bind succeededAppTombstones_only finalizeEach_only

theorem backfillEach_only (tombstoned : List Uuid) :
    ∀ l, (backfillEach tombstoned l).Only Call.Housekeeps
  | [] => trivial
  | (app, op, body) :: rest => by
    unfold backfillEach
    split
    · exact backfillEach_only tombstoned rest
    · refine only_bind (preserveProof_only app op) fun _ => ?_
      exact only_bind (markFinalized_only app op) fun _ => backfillEach_only tombstoned rest

theorem completedEach_only (tombstones : List (Uuid × Uuid)) :
    ∀ l, (completedEach tombstones l).Only Call.Housekeeps
  | [] => trivial
  | receipt :: rest => by
    refine only_ensure_bind fun _ => only_call trivial fun there => ?_
    refine only_ensure_bind fun _ => only_ensure_bind fun _ => ?_
    exact only_bind (completedEach_only tombstones rest) fun _ => trivial

theorem resumeDeletions_only : resumeDeletions.Only Call.Housekeeps := by
  have hpreserve : preserveCompletedUnregistrations.Only Call.Housekeeps :=
    only_call trivial fun r => only_bind (only_fromStore r) fun tombstones =>
      only_call trivial fun r => only_orElse_bind fun _ => backfillEach_only _ _
  have hcompleted : completedApps.Only Call.Housekeeps :=
    only_call trivial fun r => only_bind (only_fromStore r) fun tombstones =>
      only_bind pending_only fun _ => only_call trivial fun r =>
        only_orElse_bind fun _ => completedEach_only _ _
  refine only_bind hpreserve fun _ => ?_
  refine only_bind (only_bind validateAppTombstones_only fun _ =>
    only_bind hcompleted fun _ => trivial) fun _ => ?_
  exact only_bind succeededAppTombstones_only fun _ => finalizeSucceededTombstones_only

theorem reconcile_only : reconcile.Only Call.Housekeeps :=
  only_bind succeededAppTombstones_only fun _ => finalizeSucceededTombstones_only

theorem finalizeDeletionOrReconcile_only (app op : Uuid) :
    ∀ canFinalize, (finalizeDeletionOrReconcile app op canFinalize).Only Call.Housekeeps
  | true => only_bind (only_attempt (finalizeAppUnregistration_only app op)) fun _ => only_pure ()
  | false => trivial

theorem replayDeletion_only (app op : Uuid) : (replayDeletion app op).Only Call.Housekeeps := by
  refine only_bind (only_attempt succeededAppTombstones_only) fun r => ?_
  split
  · trivial
  next unfinished =>
    split
    · exact only_call trivial fun published => finalizeDeletionOrReconcile_only app op published.2
    · trivial

end Only

/-- The finalizer leaves the ledger alone, and everything but trash and receipts. -/
theorem Call.Housekeeps.kept (h : e.Housekeeps) (w : Host) (c : Choice e) :
    Kept w (Host.act w e c).2 := by
  cases e with
  | removeTombstone app op => exact removeTombstone_kept w app op c
  | insertReceipt app op =>
    show Kept w (if c.applied then w.insertReceipt app op else w)
    split
    · exact insertReceipt_kept w app op
    · rfl
  | markFinalized app op =>
    show Kept w (if c.applied then w.markFinalized app op else w)
    split <;> rfl
  | _ => first | rfl | exact h.elim

/-! ## Invariants of every history -/

/-- An invariant of the world, for histories whose calls meet `G` and whose served tasks
meet `K`: claims, restarts, the finalizer's calls and changes by others keep it, and so
does every handler. -/
structure Stable (G : Option Task → Host → (e : Call) → appService.world.Choice e → Prop)
    (K : Host → Task → Prop) (L : Host → Change → Prop) (I : Host → List Task → Prop) : Prop where
  attended : ∀ w ts, I w ts → Attended w ts
  waits : ∀ w ts ts', I w ts → Attended w ts' → Drawn w ts ts' → I w ts'
  claimed : ∀ w w' ts ts' q, I w ts → Claimed q w w' → Attended w' ts' → Drawn w ts ts' → I w' ts'
  interrupt : ∀ w, I w [] → I w.interrupt []
  housekeeps : ∀ t w e c ts, G t w e c → e.Housekeeps → I w ts → I (Host.act w e c).2 ts
  handle : ∀ w ts i a, ts[i]? = some (.attempt a) → I w ts → K w (.attempt a) →
    appWorld.wp (G (some (.attempt a))) (I · (ts.eraseIdx i)) (handle a)
      (fun _ w => I w (ts.eraseIdx i)) w
  change : ∀ w ts b, L w b → I w ts → I (w.change b) ts

/-- What the handlers, the finalizer and the changes keep, the service keeps. -/
theorem Stable.keeps {G : Option Task → Host → (e : Call) → appService.world.Choice e → Prop}
    {K : Host → Task → Prop} {L : Host → Change → Prop} {I : Host → List Task → Prop}
    (h : Stable G K L I) : appService.Keeps G K L I := by
  have hforget : ∀ w ts i, I w ts → I w (ts.eraseIdx i) := fun w ts i hI =>
    h.waits w ts _ hI ((h.attended w ts hI).forget i) (.sublist (List.eraseIdx_sublist ts i))
  have honly :
    ∀ {ε α : Type} {t : Option Task} {p : Prog Call Answer ε α} {ts : List Task} {w : Host},
      p.Only Call.Housekeeps → I w ts → appWorld.wp (G t) (I · ts) p (fun _ => (I · ts)) w :=
    fun hp hI => wp_of_only hp (fun w e c he hc hI => h.housekeeps _ w e c _ hc he hI)
      (fun _ hI => hI) hI
  refine ⟨hforget, fun w ts hI => ?_, fun arrival w ts hI => ?_, fun w ts i t hget hI hK => ?_,
    fun w hI => ?_, h.change⟩
  · exact h.waits w ts [] hI (h.attended w ts hI).forgetAll (.sublist (List.nil_sublist ts))
  · refine wp_mono (receive_spec (h.attended w ts hI) arrival) fun r w' hr => ?_
    obtain ⟨hattended, hdrawn, rfl | ⟨q, -, hclaimed⟩⟩ := hr
    · exact h.waits w' ts _ hI hattended hdrawn
    · exact h.claimed w w' ts _ q hI hclaimed hattended hdrawn
  · cases t with
    | attempt a => exact wp_attempt_bind (h.handle w ts i a hget hI hK) fun _ _ hI => hI
    | replayed app op =>
      exact wp_attempt_bind (honly (replayDeletion_only app op) (hforget w ts i hI))
        fun _ _ hI => hI
    | reconcile => exact wp_attempt_bind (honly reconcile_only (hforget w ts i hI)) fun _ _ hI => hI
  · refine wp_attempt_bind (P := fun _ => (I · [])) ?_ fun _ _ hI => hI
    refine wp_call fun o _ => ?_
    have hnew : I (Host.act w .interruptPending o).2 [] := by
      show I (if o.applied then w.interrupt else w) []
      split
      · exact h.interrupt w hI
      · exact hI
    exact ⟨hnew, wp_accept_bind (fun _ _ => honly resumeDeletions_only hnew) fun _ _ => hnew⟩

end SoloDock.Apps
