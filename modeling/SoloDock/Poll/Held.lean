import SoloDock.Poll.Tables

/-!
# The guards of a failed target

Once a poll deployment of a target has failed, was rolled back or needs attention, the
target is `held`: nothing but its own manifest becoming active lets go of it. Two things
keep later attempts from scheduling it again, the column `suppressed_target_key`, which
has room for one target, and the idempotency record of the target, which is collected
after a day. `spares` is the condition on what others do between the calls of an attempt:
no held target loses its last guard.

What such a deed can do to one target is said once, in `Moved`; that and the invariant
`Inv` are all the attempts need to know of the rest of the process (`deeds_keep`).
-/

namespace SoloDock.Poll

open Lib Lib.Prog Registry Deploy
open Webhook (PollState newPollState wake)
open Mutation (IdempotencyError)

variable (app : App)

/-! ## What the account says about a target -/

/-- The manifest is the one the target key was taken of. -/
def isManifestOf (target manifest : String) : Bool :=
  (keyStem app.metadata.toAppMetadata manifest).toList.isPrefixOf target.toList

/-- The manifest that was active when the note was made. -/
def Note.active : Note → Option String
  | .scheduled _ => none
  | .ended _ _ active => active
  | .activated manifest => some manifest

/-- The target's manifest was the active one. -/
def Note.shows (target : String) (note : Note) : Bool :=
  note.active.any (isManifestOf app target)

/-- A poll deployment of the target ended in a way that suppresses it. -/
def Note.endsBadly (target : String) : Note → Bool
  | .ended record status _ => suppresses status && polls record app.generation target
  | _ => false

/-- The target has ended badly, and its manifest has not been active since. -/
def held (target : String) : List Note → Bool
  | [] => false
  | note :: rest => !note.shows app target && (note.endsBadly app target || held target rest)

/-- No target was scheduled while it was held. -/
def Durable : List Note → Prop
  | [] => True
  | .scheduled record :: rest =>
    (∀ target, polls record app.generation target = true → held app target rest = false)
      ∧ Durable rest
  | _ :: rest => Durable rest

/-! ## The two guards -/

/-- The column, where the row is of the app's generation. -/
def column (row : Option PollState) : Option String :=
  (row.filter (·.generation = app.generation)).bind (·.suppressedTargetKey)

/-- The row is of the app's generation. -/
def current (row : Option PollState) : Bool :=
  row.any (·.generation = app.generation)

/-- The idempotency key of a target that is scheduled for the first time. -/
def firstKey (target : String) : String :=
  keyText app.metadata.toAppMetadata app.generation target ""

/-- The record of the target is there. -/
def recorded (s : Tables) (target : String) : Bool :=
  s.records.any (·.key = firstKey app target)

/-- The targets that have ended badly at some time. -/
def endedTargets (log : List Note) : List String :=
  log.filterMap fun
    | .ended record _ _ => record.scheduledTargetKey
    | _ => none

/-- No record that is collected is that of a held target, unless the column names the
target. -/
def collectSpares (s : Tables) (chosen : List Uuid) : Bool :=
  (endedTargets s.log).all fun target =>
    !held app target s.log || column app s.row == some target
      || (!recorded app s target || recorded app (collect s chosen) target)

/-- A target that is held by the column alone is not displaced from it: the deployment
that ends badly is of the same target, or of another generation. -/
def endSpares (s : Tables) (id : Uuid) (status : Status) : Bool :=
  match column app s.row with
  | none => true
  | some target =>
    !suppresses status || !held app target s.log || recorded app s target
      || s.deployments.all fun d =>
        !(d.record.id == id && d.unfinished && d.record.trigger == .poll
          && d.record.pollGeneration == some app.generation)
          || d.record.scheduledTargetKey == some target

/-- The condition on what others do: no held target loses its last guard. -/
def spares (s : Tables) : Deed → Bool
  | .collect chosen => collectSpares app s chosen
  | .transition id status => endSpares app s id status
  | _ => true

/-- The condition on a call of an attempt: the deeds before it meet it. -/
def Fair (s : Tables) (e : Call) (c : (pollWorld app).Choice e) : Prop :=
  Along (apply app) (fun s d => spares app s d = true) s c.1

/-! ## What an attempt is made of, and what the deeds leave -/

/-- No deployment of the target is under way. -/
def NoFlight (target : String) (s : Tables) : Prop :=
  ∀ d ∈ s.deployments, d.unfinished = true → polls d.record app.generation target = false

/-- The target is not held, and will not be by the deployment that is under way: its
manifest is active already. -/
def Shown (target : String) (s : Tables) : Prop :=
  held app target s.log = false ∧
    ∀ d ∈ s.deployments, d.unfinished = true → polls d.record app.generation target = true →
      (s.activeManifest app).any (isManifestOf app target) = true

/-- What the tables always satisfy: one deployment is under way at a time, the latest. -/
structure Consistent (s : Tables) : Prop where
  older : ∀ d ∈ s.deployments.tail, d.unfinished = false
  running : ∀ d ∈ s.deployments, d.unfinished = true → ∀ target,
    polls d.record app.generation target = true → current app s.row = true ∧
      ∃ manifest, d.record.scheduledManifestDigest = some manifest
        ∧ isManifestOf app target manifest = true

/-- The invariant: a held target is guarded, its last deployment has ended, and its
manifest is not active. -/
structure Inv (s : Tables) : Prop extends Consistent app s where
  guarded : ∀ target, held app target s.log = true →
    column app s.row = some target ∨ recorded app s target = true
  last : ∀ target, held app target s.log = true → ∀ d, s.deployments.head? = some d →
    polls d.record app.generation target = true → d.unfinished = false ∧ d.status ≠ .interrupted
  inactive : ∀ target, held app target s.log = true →
    (s.activeManifest app).any (isManifestOf app target) = false
  durable : Durable app s.log

/-- What can happen to a target while no attempt claims and nothing is forgotten. -/
structure Moved (s s' : Tables) : Prop where
  flight : ∀ target, NoFlight app target s → NoFlight app target s'
  held : ∀ target, NoFlight app target s → held app target s'.log = true →
    held app target s.log = true
  column : ∀ target, NoFlight app target s → column app s'.row = some target →
    column app s.row = some target
  shown : ∀ target, Shown app target s → Shown app target s'
  current : current app s.row = true → current app s'.row = true

variable {app} {s s' s'' : Tables}

namespace Moved

theorem refl (s : Tables) : Moved app s s where
  flight _ h := h
  held _ _ h := h
  column _ _ h := h
  shown _ h := h
  current h := h

theorem trans (h : Moved app s s') (h' : Moved app s' s'') : Moved app s s'' where
  flight t hs := h'.flight t (h.flight t hs)
  held t hs hheld := h.held t hs (h'.held t (h.flight t hs) hheld)
  column t hs hcol := h.column t hs (h'.column t (h.flight t hs) hcol)
  shown t hs := h'.shown t (h.shown t hs)
  current hs := h'.current (h.current hs)

end Moved

/-- Consistent tables meet the invariant before the first step. -/
theorem Consistent.inv (h : Consistent app s) (hlog : s.log = []) : Inv app s where
  toConsistent := h
  guarded t ht := by simp [hlog, held] at ht
  last t ht := by simp [hlog, held] at ht
  inactive t ht := by simp [hlog, held] at ht
  durable := by rw [hlog]; trivial

variable {d : Deployment}

theorem Consistent.head (h : Consistent app s) (hd : d ∈ s.deployments)
    (hrun : d.unfinished = true) : s.deployments.head? = some d := by
  have holder := h.older
  revert holder
  cases hdep : s.deployments with
  | nil => rw [hdep] at hd; cases hd
  | cons e rest =>
    intro holder
    rw [hdep] at hd
    rcases List.mem_cons.mp hd with rfl | hrest
    · rfl
    · rw [holder d hrest] at hrun
      cases hrun

/-! ## The row -/

@[simp] theorem column_some (row : PollState) : column app (some row) =
    if row.generation = app.generation then row.suppressedTargetKey else none := by
  unfold column
  by_cases h : row.generation = app.generation
  · rw [if_pos h, Option.filter_some, if_pos (by simpa using h)]
    rfl
  · rw [if_neg h, Option.filter_some, if_neg (by simpa using h)]
    rfl

@[simp] theorem column_none : column app none = none := rfl

@[simp] theorem current_some (row : PollState) :
    current app (some row) = decide (row.generation = app.generation) := rfl

@[simp] theorem current_none : current app none = false := rfl

/-- A write that keeps the column and the generation. -/
structure KeepsColumn (app : App) (row row' : Option PollState) : Prop where
  column : column app row' = column app row
  current : current app row = true → current app row' = true

variable {row : Option PollState}

theorem publish_keepsColumn {value : PollObservation} {now : Instant} {row' : PollState}
    (hg : value.generation = app.generation)
    (h : publish value now row = some row') :
    KeepsColumn app row (some row') ∧ row'.generation = app.generation := by
  obtain ⟨next, checked, text, ⟨rfl, rfl⟩ | ⟨row, rfl, rfl⟩⟩ := publish_cases h
  · exact ⟨⟨by simp [PollObservation.insert], by simp⟩, hg⟩
  · refine ⟨⟨?_, by simp [PollObservation.update, hg]⟩, hg⟩
    by_cases hrow : row.generation = app.generation
    · simp [PollObservation.update, hg, hrow]
    · simp [PollObservation.update, hg, hrow]

theorem wake_keepsColumn (now : String) (row : Option PollState) :
    KeepsColumn app row (some (wake app.generation now row)) := by
  cases row with
  | none => exact ⟨by simp [wake, newPollState], by simp⟩
  | some row =>
    refine ⟨?_, by simp [wake]⟩
    by_cases hrow : row.generation = app.generation
    · simp [wake, hrow]
    · simp [wake, hrow, newPollState]

theorem firstDue_keepsColumn (due now : String) (hrow : current app row = false) :
    KeepsColumn app row (some (initializeGeneration app.generation due now row)) := by
  refine ⟨?_, fun h => by simp [hrow] at h⟩
  cases row with
  | none => simp [initializeGeneration, newPollState]
  | some row =>
    have hne : row.generation ≠ app.generation := by simpa using hrow
    simp [initializeGeneration, newPollState, hne]

theorem acknowledge_keepsColumn (captured : Nat) (now : String) (row : Option PollState) :
    KeepsColumn app row (row.map (markWebhookProcessed app.generation captured now)) := by
  cases row with
  | none => exact ⟨rfl, id⟩
  | some row =>
    by_cases hrow : row.generation = app.generation
    · exact ⟨by simp [markWebhookProcessed, hrow], by simp [markWebhookProcessed, hrow]⟩
    · exact ⟨by simp [markWebhookProcessed, hrow], by simp [hrow]⟩

theorem Inv.withRow (h : Inv app s) (hrow : KeepsColumn app s.row row) :
    Inv app { s with row } where
  older := h.older
  running d hd hrun t ht := by
    obtain ⟨hcur, hmanifest⟩ := h.running d hd hrun t ht
    exact ⟨hrow.current hcur, hmanifest⟩
  guarded t ht := by
    rw [show column app _ = column app s.row from hrow.column]
    exact h.guarded t ht
  last := h.last
  inactive := h.inactive
  durable := h.durable

theorem moved_withRow (hrow : KeepsColumn app s.row row) : Moved app s { s with row } where
  flight _ h := h
  held _ _ h := h
  column _ _ h := hrow.column ▸ h
  shown _ h := h
  current := hrow.current

/-! ## A deployment moves -/

/-- The state after the deployment under way went to `status`. -/
def movedTo (app : App) (s : Tables) (d : Deployment) (rest : List Deployment) (status : Status)
    (now : String) : Tables :=
  { s with
    deployments := { d with status } :: rest
    row := rowAfter d.record status now s.row
    log := if status = .queued ∨ status = .running then s.log
      else .ended d.record status (s.activeManifest app) :: s.log }

theorem transition_cases (h : Consistent app s) (id : Uuid) (status : Status) :
    transition app s id status = s ∨
      ∃ d rest now, s.deployments = d :: rest ∧ d.record.id = id ∧ d.unfinished = true ∧
        transition app s id status = movedTo app s d rest status now := by
  have holder := h.older
  unfold transition
  revert holder
  cases hdep : s.deployments with
  | nil =>
    intro _
    left
    split
    next h => cases h
    · rfl
  | cons d rest =>
    intro holder
    have hrest : ∀ e ∈ rest, ¬(e.record.id = id ∧ e.unfinished = true) := by
      intro e he hmatch
      rw [holder e he] at hmatch
      cases hmatch.2
    by_cases hd : d.record.id = id ∧ d.unfinished = true
    · cases hnow : rfc3339 s.now with
      | none => exact Or.inl rfl
      | some now =>
        right
        refine ⟨d, rest, now, rfl, hd.1, hd.2, ?_⟩
        have hmap : rest.map (fun e => if e.record.id = id ∧ e.unfinished = true
            then { e with status } else e) = rest := by
          conv => rhs; rw [← List.map_id rest]
          exact List.map_congr_left fun e he => if_neg (hrest e he)
        simp only [List.find?_cons, hd, decide_true, and_self, List.map_cons, if_true,
          hmap, movedTo]
    · left
      have hfind : (d :: rest).find? (fun e => decide (e.record.id = id ∧ e.unfinished = true))
          = none := by
        rw [List.find?_eq_none]
        intro e he
        rcases List.mem_cons.mp he with rfl | he
        · simpa using hd
        · simpa using hrest e he
      rw [hfind]
      cases rfc3339 s.now with
      | none => rfl
      | some _ => rfl

variable {record : Record}

theorem polls_iff {generation target : String} :
    polls record generation target = true ↔ record.trigger = .poll ∧
      record.pollGeneration = some generation ∧ record.scheduledTargetKey = some target := by
  simp [polls, and_assoc]

section RowAfter

variable {status : Status} {now target : String}

theorem rowAfter_of_not (h : suppresses status = false) : rowAfter record status now row = row := by
  unfold rowAfter
  cases record.scheduledTargetKey with
  | none => rfl
  | some target => simp [h]

theorem rowAfter_cases (record : Record) (status : Status) (now : String)
    (row : Option PollState) : rowAfter record status now row = row ∨ ∃ target,
    suppresses status = true ∧ record.trigger = .poll ∧ record.scheduledTargetKey = some target ∧
      rowAfter record status now row = row.map (suppressTarget record target now) := by
  unfold rowAfter
  cases htarget : record.scheduledTargetKey with
  | none => exact Or.inl rfl
  | some target =>
    by_cases h : record.trigger = .poll ∧ suppresses status = true
    · exact Or.inr ⟨target, h.2, h.1, rfl, by simp [h]⟩
    · exact Or.inl (by simp [h])

theorem current_rowAfter (h : current app row = true) :
    current app (rowAfter record status now row) = true := by
  rcases rowAfter_cases record status now row with heq | ⟨target, -, -, -, heq⟩
  · rw [heq]
    exact h
  · rw [heq]
    cases row with
    | none => exact h
    | some row =>
      unfold suppressTarget
      simp only [Option.map_some, current_some] at h ⊢
      split
      · exact h
      · exact h

/-- After a bad end the column is what it was, or the target of the deployment. -/
theorem column_rowAfter (app : App) (record : Record) (status : Status) (now : String)
    (row : Option PollState) : column app (rowAfter record status now row) = column app row ∨
    ∃ target, suppresses status = true ∧ polls record app.generation target = true ∧
      column app (rowAfter record status now row) = some target := by
  rcases rowAfter_cases record status now row with heq | ⟨target, hbad, hpoll, htarget, heq⟩
  · exact Or.inl (by rw [heq])
  rw [heq]
  cases row with
  | none => exact Or.inl rfl
  | some row =>
    by_cases hgen : some row.generation = record.pollGeneration
    · by_cases hrow : row.generation = app.generation
      · refine Or.inr ⟨target, hbad, polls_iff.mpr ⟨hpoll, ?_, htarget⟩, ?_⟩
        · rw [← hgen, hrow]
        · simp only [Option.map_some, suppressTarget, if_pos hgen, column_some, if_pos hrow]
      · exact Or.inl (by simp [suppressTarget, hgen, hrow])
    · exact Or.inl (by simp [suppressTarget, hgen])

theorem column_suppressed (hcur : current app row = true) (hbad : suppresses status = true)
    (hpolls : polls record app.generation target = true) :
    column app (rowAfter record status now row) = some target := by
  obtain ⟨hpoll, hgen, htarget⟩ := polls_iff.mp hpolls
  cases row with
  | none => simp at hcur
  | some row =>
    have hrow : row.generation = app.generation := by simpa using hcur
    simp [rowAfter, htarget, hpoll, hbad, suppressTarget, hgen, hrow]

end RowAfter

variable {status : Status} {target now : String} {rest : List Deployment} {id : Uuid}

theorem held_cons {note : Note} {rest : List Note} :
    held app target (note :: rest) = true ↔ note.shows app target = false ∧
      (note.endsBadly app target = true ∨ held app target rest = true) := by
  simp [held]

theorem held_of_cons {note : Note} {rest : List Note} (hend : note.endsBadly app target = false)
    (h : held app target (note :: rest) = true) : held app target rest = true := by
  rcases (held_cons.mp h).2 with hbad | hbefore
  · rw [hend] at hbad
    cases hbad
  · exact hbefore

theorem unfinished_iff : d.unfinished = true ↔ d.status = .queued ∨ d.status = .running := by
  simp [Deployment.unfinished]

theorem movedTo_running
    (h : Inv app s) (hdep : s.deployments = d :: rest) (hrun : d.unfinished = true)
    (hstatus : status = .queued ∨ status = .running) :
    Inv app (movedTo app s d rest status now) ∧ Moved app s (movedTo app s d rest status now) := by
  have hno : suppresses status = false := by
    rcases hstatus with rfl | rfl
    · rfl
    · rfl
  have hstate :
    movedTo app s d rest status now = { s with deployments := { d with status } :: rest } := by
    unfold movedTo
    rw [rowAfter_of_not hno, if_pos hstatus]
  have hd : d ∈ s.deployments := by
    rw [hdep]
    exact List.mem_cons_self
  have hrest : ∀ e ∈ rest, e.unfinished = false := by
    have := h.older
    rw [hdep] at this
    exact this
  have hflight : ∀ t, NoFlight app t s ↔ polls d.record app.generation t = false := by
    intro t
    constructor
    · intro hs
      exact hs d hd hrun
    · intro hs e he hrun'
      rw [hdep] at he
      rcases List.mem_cons.mp he with rfl | he
      · exact hs
      · rw [hrest e he] at hrun'
        cases hrun'
  rw [hstate]
  constructor
  · refine { older := hrest, running := ?_, guarded := h.guarded, last := ?_,
             inactive := h.inactive, durable := h.durable }
    · intro e he hrun' t ht
      rcases List.mem_cons.mp he with rfl | he
      · exact h.running d hd hrun t ht
      · rw [hrest e he] at hrun'
        cases hrun'
    · intro t hheld e he ht
      obtain rfl : { d with status } = e := Option.some.inj he
      have := (h.last t hheld d (by rw [hdep]; rfl) ht).1
      rw [hrun] at this
      cases this
  · refine { flight := ?_, held := fun _ _ h => h, column := fun _ _ h => h, shown := ?_,
             current := id }
    · intro t hs e he hrun'
      rcases List.mem_cons.mp he with rfl | he
      · exact (hflight t).mp hs
      · rw [hrest e he] at hrun'
        cases hrun'
    · intro t hs
      refine ⟨hs.1, ?_⟩
      intro e he hrun' ht
      rcases List.mem_cons.mp he with rfl | he
      · exact hs.2 d hd hrun ht
      · rw [hrest e he] at hrun'
        cases hrun'

/-- The end of a deployment keeps the invariant, if it does not push out a target that is held
and on no record. -/
theorem movedTo_ended
    (h : Inv app s) (hdep : s.deployments = d :: rest) (hrun : d.unfinished = true)
    (hstatus : ¬(status = .queued ∨ status = .running))
    (hspares : ∀ target target', column app s.row = some target → held app target s.log = true →
      suppresses status = true → polls d.record app.generation target' = true →
      target' = target ∨ recorded app s target = true) :
    Inv app (movedTo app s d rest status now) ∧ Moved app s (movedTo app s d rest status now) := by
  have hlog : (movedTo app s d rest status now).log =
      .ended d.record status (s.activeManifest app) :: s.log := if_neg hstatus
  have hd : d ∈ s.deployments := by
    rw [hdep]
    exact List.mem_cons_self
  have hfinished : ∀ e ∈ { d with status } :: rest, e.unfinished = false := by
    intro e he
    rcases List.mem_cons.mp he with rfl | he
    · rw [Bool.eq_false_iff]
      intro hrun'
      exact hstatus (unfinished_iff.mp hrun')
    · have := h.older
      rw [hdep] at this
      exact this e he
  -- a target is held afterwards because of this end, or was held before
  have hheld : ∀ t, held app t (movedTo app s d rest status now).log = true →
      (suppresses status = true ∧ polls d.record app.generation t = true) ∨
        held app t s.log = true := by
    intro t ht
    rw [hlog, held_cons] at ht
    rcases ht.2 with hend | hbefore
    · exact Or.inl (by simpa [Note.endsBadly] using hend)
    · exact Or.inr hbefore
  constructor
  · refine {
      older := fun e he => hfinished e (List.mem_cons_of_mem _ he)
      running := fun e he hrun' => by rw [hfinished e he] at hrun'; cases hrun'
      guarded := ?_, last := ?_, inactive := ?_, durable := ?_ }
    · intro t ht
      rcases hheld t ht with ⟨hbad, hpolls⟩ | hbefore
      · exact Or.inl (column_suppressed (h.running d hd hrun t hpolls).1 hbad hpolls)
      rcases h.guarded t hbefore with hcol | hrec
      · -- the column is displaced only by another target, and then the record is there
        rcases column_rowAfter app d.record status now s.row with heq | ⟨t', hbad, hpolls, heq⟩
        · exact Or.inl (heq.trans hcol)
        · rcases hspares t t' hcol hbefore hbad hpolls with rfl | hrec
          · exact Or.inl heq
          · exact Or.inr hrec
      · exact Or.inr hrec
    · intro t ht e he hpolls
      obtain rfl : { d with status } = e := Option.some.inj he
      refine ⟨hfinished _ List.mem_cons_self, ?_⟩
      rcases hheld t ht with ⟨hbad, -⟩ | hbefore
      · rintro rfl
        cases hbad
      · have := (h.last t hbefore d (by rw [hdep]; rfl) hpolls).1
        rw [hrun] at this
        cases this
    · intro t ht
      rw [hlog, held_cons] at ht
      exact ht.1
    · rw [hlog]
      exact h.durable
  · refine {
      flight := fun t _ e he hrun' => by rw [hfinished e he] at hrun'; cases hrun'
      held := ?_, column := ?_, shown := ?_, current := current_rowAfter }
    · intro t hs ht
      rcases hheld t ht with ⟨-, hpolls⟩ | hbefore
      · rw [hs d hd hrun] at hpolls
        cases hpolls
      · exact hbefore
    · intro t hs hcol
      rcases column_rowAfter app d.record status now s.row with heq | ⟨t', -, hpolls, heq⟩
      · exact heq ▸ hcol
      · obtain rfl : t' = t := Option.some.inj (heq.symm.trans hcol)
        rw [hs d hd hrun] at hpolls
        cases hpolls
    · intro t hs
      refine ⟨?_, fun e he hrun' => by rw [hfinished e he] at hrun'; cases hrun'⟩
      rw [Bool.eq_false_iff]
      intro ht
      rcases hheld t ht with ⟨-, hpolls⟩ | hbefore
      · have hshows : Note.shows app t (.ended d.record status (s.activeManifest app)) = true :=
          hs.2 d hd hrun hpolls
        rw [hlog, held_cons, hshows] at ht
        cases ht.1
      · rw [hs.1] at hbefore
        cases hbefore

theorem endSpares_head
    (hspares : endSpares app s id status = true) (hd : d ∈ s.deployments) (hid : d.record.id = id)
    (hrun : d.unfinished = true) {target target' : String} (hcol : column app s.row = some target)
    (hheld : held app target s.log = true) (hbad : suppresses status = true)
    (hpolls : polls d.record app.generation target' = true) :
    target' = target ∨ recorded app s target = true := by
  obtain ⟨hpoll, hgen, htarget⟩ := polls_iff.mp hpolls
  unfold endSpares at hspares
  rw [hcol] at hspares
  by_cases hrec : recorded app s target = true
  · exact Or.inr hrec
  · left
    simp only [hbad, hheld, hrec, Bool.not_true, Bool.false_or, List.all_eq_true] at hspares
    have := hspares d hd
    simp only [hid, hrun, hpoll, hgen, beq_self_eq_true, Bool.and_self, Bool.not_true,
      Bool.false_or, beq_iff_eq] at this
    exact Option.some.inj (htarget.symm.trans this)

theorem transition_keeps (h : Inv app s) (hspares : endSpares app s id status = true) :
    Inv app (transition app s id status) ∧ Moved app s (transition app s id status) := by
  rcases transition_cases h.toConsistent id status with heq | ⟨d, rest, now, hdep, hid, hrun, heq⟩
  · rw [heq]
    exact ⟨h, Moved.refl s⟩
  · rw [heq]
    by_cases hstatus : status = .queued ∨ status = .running
    · exact movedTo_running h hdep hrun hstatus
    · refine movedTo_ended h hdep hrun hstatus ?_
      intro t t' hcol hheld hbad hpolls
      exact endSpares_head hspares (by rw [hdep]; exact List.mem_cons_self) hid hrun hcol
        hheld hbad hpolls

/-! ## The other deeds -/

/-- A deployment that is claimed when none is under way, and that is not of a held target. -/
theorem claim_keeps (h : Inv app s)
    (hidle : s.deployments.any (·.unfinished) = false)
    (hpoll : ∀ target, polls record app.generation target = false) :
    Inv app { s with deployments := ⟨record, .queued⟩ :: s.deployments } ∧
      Moved app s { s with deployments := ⟨record, .queued⟩ :: s.deployments } := by
  have hfinished : ∀ e ∈ s.deployments, e.unfinished = false := by
    simpa using hidle
  have hnone : ∀ e ∈ (⟨record, .queued⟩ :: s.deployments : List Deployment), ∀ t,
      e.unfinished = true → polls e.record app.generation t = false := by
    intro e he t hrun
    rcases List.mem_cons.mp he with rfl | he
    · exact hpoll t
    · rw [hfinished e he] at hrun
      cases hrun
  constructor
  · refine { older := hfinished, running := ?_, guarded := h.guarded, last := ?_,
             inactive := h.inactive, durable := h.durable }
    · intro e he hrun t ht
      rw [hnone e he t hrun] at ht
      cases ht
    · intro t _ e he ht
      obtain rfl : (⟨record, .queued⟩ : Deployment) = e := Option.some.inj he
      rw [show polls record app.generation t = _ from hpoll t] at ht
      cases ht
  · refine { flight := fun t _ e he => hnone e he t, held := fun _ _ h => h,
             column := fun _ _ h => h, shown := ?_, current := id }
    intro t hs
    refine ⟨hs.1, fun e he hrun ht => ?_⟩
    rw [hnone e he t hrun] at ht
    cases ht

theorem commitActive_keeps (h : Inv app s) (release : Uuid) :
    Inv app (commitActive app s release) ∧ Moved app s (commitActive app s release) := by
  unfold commitActive
  split
  next d hfind =>
    split
    · exact ⟨h, Moved.refl s⟩
    next hmanifest =>
      have hd : d ∈ s.deployments := List.mem_of_find?_eq_some hfind
      have hrun : d.unfinished = true := by simpa using List.find?_some hfind
      -- the target of the deployment under way is the one whose manifest becomes active
      have hactive : ∀ t, polls d.record app.generation t = true →
          isManifestOf app t (app.release release).manifestDigest = true := by
        intro t ht
        obtain ⟨-, manifest, hscheduled, hkey⟩ := h.running d hd hrun t ht
        have hsame : d.record.scheduledManifestDigest = some (app.release release).manifestDigest :=
          Decidable.byContradiction fun hne => hmanifest ⟨(polls_iff.mp ht).1, hne⟩
        obtain rfl : manifest = (app.release release).manifestDigest :=
          Option.some.inj (hscheduled.symm.trans hsame)
        exact hkey
      constructor
      · refine { toConsistent := ⟨h.older, h.running⟩, guarded := ?_, last := ?_, inactive := ?_,
                 durable := h.durable }
        · intro t ht
          exact h.guarded t (held_of_cons rfl ht)
        · intro t ht
          exact h.last t (held_of_cons rfl ht)
        · intro t ht
          exact (held_cons.mp ht).1
      · refine { flight := fun _ h => h, held := ?_, column := fun _ _ h => h, shown := ?_,
                 current := id }
        · intro t _ ht
          exact held_of_cons rfl ht
        · intro t hs
          refine ⟨?_, ?_⟩
          · rw [Bool.eq_false_iff]
            intro ht
            have hbefore := held_of_cons rfl ht
            rw [hs.1] at hbefore
            cases hbefore
          · intro e he hrun' ht
            obtain rfl : d = e := Option.some.inj ((h.head hd hrun).symm.trans (h.head he hrun'))
            show (some (app.release release).manifestDigest).any (isManifestOf app t) = true
            rw [Option.any_some]
            exact hactive t ht
  · exact ⟨h, Moved.refl s⟩

theorem mem_endedTargets {log : List Note} (h : held app target log = true) :
    target ∈ endedTargets log := by
  induction log with
  | nil => cases h
  | cons note rest ih =>
    rcases (held_cons.mp h).2 with hend | hbefore
    · cases note with
      | ended record status active =>
        have hpolls : suppresses status = true ∧ polls record app.generation target = true := by
          simpa [Note.endsBadly] using hend
        simp [endedTargets, (polls_iff.mp hpolls.2).2.2]
      | scheduled | activated => cases hend
    · have := ih hbefore
      unfold endedTargets at this ⊢
      rw [List.filterMap_cons]
      split
      · exact this
      · exact List.mem_cons_of_mem _ this

theorem collect_keeps {chosen : List Uuid} (h : Inv app s)
    (hspares : collectSpares app s chosen = true) :
    Inv app (collect s chosen) ∧ Moved app s (collect s chosen) := by
  have hguarded : ∀ t, held app t s.log = true →
      column app s.row = some t ∨ recorded app (collect s chosen) t = true := by
    intro t ht
    have := List.all_eq_true.mp hspares t (mem_endedTargets ht)
    simp only [ht, Bool.not_true, Bool.false_or, Bool.or_eq_true, beq_iff_eq,
      Bool.not_eq_true'] at this
    rcases h.guarded t ht with hcol | hrec
    · exact Or.inl hcol
    · rcases this with hcol | hlost | hkept
      · exact Or.inl hcol
      · rw [hrec] at hlost
        cases hlost
      · exact Or.inr hkept
  revert hguarded
  unfold collect
  split
  next cutoff =>
    intro hguarded
    exact ⟨⟨⟨h.older, h.running⟩, hguarded, h.last, h.inactive, h.durable⟩,
      ⟨fun _ h => h, fun _ _ h => h, fun _ _ h => h, fun _ h => h, id⟩⟩
  · intro _
    exact ⟨h, Moved.refl s⟩

theorem same_keeps (h : Inv app s)
    (hs : s' = { s with now := s'.now, pending := s'.pending, actual := s'.actual }) :
    Inv app s' ∧ Moved app s s' := by
  rw [hs]
  exact ⟨⟨⟨h.older, h.running⟩, h.guarded, h.last, h.inactive, h.durable⟩,
    ⟨fun _ h => h, fun _ _ h => h, fun _ _ h => h, fun _ h => h, id⟩⟩

theorem apply_keeps {d : Deed} (h : Inv app s) (hspares : spares app s d = true) :
    Inv app (apply app s d) ∧ Moved app s (apply app s d) := by
  cases d with
  | transition id status => exact transition_keeps h hspares
  | claim record =>
    show Inv app (claimThroughApi s record) ∧ Moved app s (claimThroughApi s record)
    unfold claimThroughApi
    split
    · exact ⟨h, Moved.refl s⟩
    next hfree =>
      simp only [not_or, Bool.not_eq_true] at hfree
      refine claim_keeps h hfree.2 fun t => ?_
      rw [Bool.eq_false_iff]
      intro ht
      exact hfree.1 (polls_iff.mp ht).1
  | commitActive release => exact commitActive_keeps h release
  | setPending | observe | pass => exact same_keeps h rfl
  | wake =>
    unfold apply
    dsimp only
    split
    next now hnow =>
      split
      · exact ⟨h.withRow (wake_keepsColumn now s.row), moved_withRow (wake_keepsColumn now s.row)⟩
      · exact ⟨h, Moved.refl s⟩
    · exact ⟨h, Moved.refl s⟩
  | collect chosen => exact collect_keeps h hspares

theorem deeds_keep {deeds : List Deed} (h : Inv app s)
    (hfair : Along (apply app) (fun s d => spares app s d = true) s deeds) :
    Inv app (play (apply app) s deeds) ∧ Moved app s (play (apply app) s deeds) := by
  refine Along.invariant (I := fun s' => Inv app s' ∧ Moved app s s') ?_ hfair ⟨h, Moved.refl s⟩
  intro s' d hspares hs'
  have hnext := apply_keeps hs'.1 hspares
  exact ⟨hnext.1, hs'.2.trans hnext.2⟩

end SoloDock.Poll
