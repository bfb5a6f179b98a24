import SoloDock.Mutation.Honest
import SoloDock.Settings.Update

/-!
# A rejected update of the settings was not stored

The row carries no mark of the operation that wrote it. A resumed update finds that the
revision is not the one it expects, and takes the row for its own when it has the values
it asked for; when another update came in between it is rejected, although it was stored.

`Truthful` is kept by every history in which an update that was stored finds its values
when it is resumed. That the revision has moved on is part of it: an update draws one that
no request had seen.
-/

namespace SoloDock.Settings

open Lib Mutation Lib.Prog
open Lib.World

/-- The row the attempt works for. -/
def Attempt.claim (a : Attempt) : Claim Route Request :=
  ⟨.settings, a.query.key, a.operation, a.query.request⟩

def underWay (ts : List Attempt) : List (Claim Route Request) := ts.map Attempt.claim

structure Truthful (w : Config) (ts : List Attempt) : Prop where
  honest : w.ledger.Honest (fun _ => true) w.next (underWay ts) w.published
  drawn : ∀ op ∈ w.published, op < w.next
  /-- A request that was claimed names a revision drawn before. -/
  seen : ∀ r ∈ w.ledger, r.request.expectedRevision < w.next
  /-- The revision an update was stored over does not come back. -/
  moved : ∀ r ∈ w.ledger, r.operationId ∈ w.published →
    r.request.expectedRevision ≠ w.settings.revision
  /-- What was stored by an attempt that waits was stored by an earlier one. -/
  again : ∀ a ∈ ts, a.operation ∈ w.published → a.resumed = true

variable {ts : List Attempt}

namespace Truthful

variable {w w' : Config}

theorem start (timezones : List String) (settings : GlobalSettings) (initialized : Bool) :
    Truthful (.start timezones settings initialized) [] :=
  ⟨.nil, fun _ h => absurd h List.not_mem_nil, fun _ h => absurd h List.not_mem_nil,
    fun _ h => absurd h List.not_mem_nil, fun _ h => absurd h List.not_mem_nil⟩

theorem forget (h : Truthful w ts) {ts' : List Attempt} (hsub : ts'.Sublist ts) : Truthful w ts' :=
  ⟨h.honest.forget (hsub.map _), h.drawn, h.seen, h.moved, fun a ha => h.again a (hsub.mem ha)⟩

theorem descends (h : Truthful w ts)
    (hhonest : w'.ledger.Honest (fun _ => true) w'.next (underWay ts) w'.published)
    (hsame : w' = { w with ledger := w'.ledger }) (hdescends : w'.ledger.Descends w.ledger) :
    Truthful w' ts := by
  have hnext : w'.next = w.next := by rw [hsame]
  have hpublished : w'.published = w.published := by rw [hsame]
  have hsettings : w'.settings = w.settings := by rw [hsame]
  refine ⟨hhonest, ?_, fun r hr => ?_, fun r hr hmem => ?_, ?_⟩
  · rw [hnext, hpublished]
    exact h.drawn
  · obtain ⟨s, hs, -, -, -, hreq⟩ := hdescends r hr
    rw [hreq, hnext]
    exact h.seen s hs
  · obtain ⟨s, hs, -, -, hop, hreq⟩ := hdescends r hr
    rw [hpublished, hop] at hmem
    rw [hreq, hsettings]
    exact h.moved s hs hmem
  · rw [hpublished]
    exact h.again

theorem redraw (h : Truthful w ts) {fresh : Uuid} {settings : GlobalSettings}
    (hfresh : w.next ≤ fresh) (hrevision : settings.revision = fresh) (initialized : Bool) :
    Truthful { w with settings, initialized, next := fresh + 1 } ts := by
  have hle : w.next ≤ fresh + 1 := Nat.le_succ_of_le hfresh
  refine ⟨⟨h.honest.rows.mono hle, h.honest.under, h.honest.honest⟩,
    fun op hop => Nat.lt_of_lt_of_le (h.drawn op hop) hle,
    fun r hr => Nat.lt_of_lt_of_le (h.seen r hr) hle, fun r hr _ => ?_, h.again⟩
  rw [hrevision]
  exact Nat.ne_of_lt (Nat.lt_of_lt_of_le (h.seen r hr) hfresh)

end Truthful

variable {w : Config}

/-! ## Claims -/

theorem Truthful.claim (h : Truthful w ts) (q : Query)
    (o : Outcome) (skip : Nat) : Truthful (w.claim q o skip).2 ts ∧ ∀ op resumed,
      (w.claim q o skip).1 = .ok (if resumed then .resume op else .new op) →
      Truthful (w.claim q o skip).2 (ts ++ [⟨q, op, resumed⟩]) := by
  refine Ledger.answered_rule (I := (Truthful · ts))
    (J := fun op resumed => (Truthful · (ts ++ [⟨q, op, resumed⟩]))) o h
    fun result ledger hclaim => ?_
  have hfresh : w.next ≤ max w.next (q.expectedRevision + 1) + skip :=
    Nat.le_trans (Nat.le_max_left _ _) (Nat.le_add_right _ _)
  have hseen : q.expectedRevision < max w.next (q.expectedRevision + 1) + skip :=
    Nat.lt_of_lt_of_le (Nat.lt_succ_self _)
      (Nat.le_trans (Nat.le_max_right _ _) (Nat.le_add_right _ _))
  have hgranted : ∀ ts', underWay ts' = underWay ts ∨ (∃ op,
      (result = .new op ∨ result = .resume op) ∧
      underWay ts' = underWay ts ++ [⟨.settings, q.key, op, q.request⟩]) →
      (∀ a ∈ ts', a.operation ∈ w.published → a.resumed = true) →
      Truthful { w with ledger, next := max w.next (q.expectedRevision + 1) + skip + 1 } ts' := by
    intro ts' hts hagain
    refine ⟨h.honest.claim hfresh hclaim hts,
      fun op hop => Nat.lt_of_lt_of_le (h.drawn op hop) (Nat.le_succ_of_le hfresh),
      fun r hr => ?_, fun r hr hmem => ?_, hagain⟩
    · rcases Ledger.origin_claim hclaim hr with ⟨s, hs, -, hreq⟩ | ⟨-, hreq⟩
      · rw [← hreq]
        exact Nat.lt_of_lt_of_le (h.seen s hs) (Nat.le_succ_of_le hfresh)
      · rw [hreq]
        exact Nat.lt_succ_of_lt hseen
    · rcases Ledger.origin_claim hclaim hr with ⟨s, hs, hop, hreq⟩ | ⟨hop, -⟩
      · rw [← hop] at hmem
        rw [← hreq]
        exact h.moved s hs hmem
      · -- The operation of a new record has stored nothing.
        rw [hop] at hmem
        exact absurd (h.drawn _ hmem) (Nat.not_lt_of_le hfresh)
  refine ⟨hgranted ts (.inl rfl) h.again, fun op resumed hres => ?_⟩
  refine hgranted _ (.inr ⟨op, Ledger.granted_cases hres, ?_⟩) fun a ha hmem => ?_
  · rw [underWay, List.map_append]
    rfl
  · rcases List.mem_append.mp ha with ha | ha
    · exact h.again a ha hmem
    · cases List.mem_singleton.mp ha
      cases resumed with
      | true => rfl
      | false =>
        -- A new operation has an identifier that was not drawn before.
        obtain rfl : result = .new op := hres
        have hmem : op ∈ w.published := hmem
        rw [Ledger.new_eq_fresh hclaim] at hmem
        exact absurd (h.drawn _ hmem) (Nat.not_lt_of_le hfresh)

/-! ## Calls that store nothing -/

/-- The calls that leave the database alone. -/
def Call.Quiet : Call → Prop
  | .validateTimezone _ => True
  | .load => True
  | .bindRootsInitialized => True
  | .probe => True
  | .validateBindRoots _ _ => True
  | .scanReadOnly => True
  | .replaceAllowedBindRoots _ => True
  | _ => False

theorem Call.Quiet.same {e : Call} (h : e.Quiet) (w : Config) (c : Choice e) :
    (w.act e c).2 = w := by
  cases e <;> first | rfl | exact h.elim

variable {G : Config → (e : Call) → Choice e → Prop}

theorem wp_quiet {C : Config → Prop}
    {p : Prog Call Answer ε α} (hp : p.Only Call.Quiet) (hw : C w) :
    settingsWorld.wp G C p (fun _ w' => w' = w) w :=
  wp_of_only hp (fun w' _ c he _ heq => (he.same w' c).trans heq) (fun _ heq => heq ▸ hw) rfl

theorem allowedRoots_only (a : Attempt) (current : GlobalSettings) :
    (allowedRoots a current).Only Call.Quiet := by
  unfold allowedRoots
  dsimp only
  split
  · trivial
  · refine only_call trivial fun answer => ?_
    match answer with
    | .error code => trivial
    | .ok none => trivial
    | .ok (some root) =>
      refine only_call trivial fun valid => ?_
      split <;> trivial

theorem removedRootReferences_only (current next : List Path) :
    (removedRootReferences current next).Only Call.Quiet := by
  unfold removedRootReferences
  dsimp only
  split
  · trivial
  · refine only_call trivial fun answer => ?_
    cases answer with
    | none => trivial
    | some report =>
      dsimp only
      split <;> trivial

/-! ## The condition -/

/-- The row has the values of the request. -/
def shows (request : Request) : (e : Call) → Answer e → Bool
  | .load, .ok current =>
    current.displayTimezone == request.displayTimezone
      && current.allowedBindRoots == request.allowedBindRoots
  | _, _ => true

/-- An update that was stored finds its values in the row. -/
def finds (a : Attempt) (w : Config) (e : Call) (c : Choice e) : Bool :=
  !w.published.contains a.operation || shows a.query.request e (w.act e c).1

/-! ## The handler -/

section Handler

variable {a : Attempt} {rest : List Attempt}

/-- Served, with its record open. -/
structure Open (a : Attempt) (rest : List Attempt) (w : Config) : Prop where
  truthful : Truthful w rest
  holds : w.ledger.Holds a.claim
  again : a.operation ∈ w.published → a.resumed = true

theorem Open.publishes {fresh : Uuid} (h : Open a rest w)
    (hapart : ∀ d ∈ underWay rest, a.claim.Apart d) (hfresh : w.next ≤ fresh) (timezone : String)
    (roots : List Path) : Truthful { w with
      settings := ⟨fresh, timezone, roots⟩
      initialized := true
      next := fresh + 1
      published := a.operation :: w.published } rest ∧
    w.ledger.Holds a.claim := by
  obtain ⟨htruth, hholds, -⟩ := h
  have hrevision : (⟨fresh, timezone, roots⟩ : GlobalSettings).revision = fresh := rfl
  have hnew := htruth.redraw hfresh hrevision true
  refine ⟨⟨hnew.honest.enter hholds fun op hop => (List.mem_cons.mp hop).symm, fun op hop => ?_,
    hnew.seen, fun r hr _ => ?_, fun b hb hmem => ?_⟩, hholds⟩
  · rcases List.mem_cons.mp hop with rfl | hop
    · obtain ⟨r, hr, hop, -⟩ := hholds
      have hlt := hnew.honest.rows.below r (Ledger.find_some hr).1
      rw [hop] at hlt
      exact hlt
    · exact hnew.drawn op hop
  · exact Nat.ne_of_lt (Nat.lt_of_lt_of_le (htruth.seen r hr) hfresh)
  · rcases List.mem_cons.mp hmem with hop | hmem
    · -- Another attempt that waits has a record, and so an operation, of its own.
      have hb' : b.claim ∈ underWay rest := List.mem_map_of_mem hb
      obtain ⟨r, hr, hrop, -⟩ := htruth.honest.under.holds b.claim hb'
      obtain ⟨hmem, hat⟩ := Ledger.find_some hr
      obtain ⟨hfind, -⟩ := htruth.honest.rows.pending hholds hmem (hrop.trans hop)
      have hat' := (Ledger.find_some hfind).2
      exact absurd ⟨rfl, hat'.2.symm.trans hat.2⟩ (hapart b.claim hb')
    · exact htruth.again b hb hmem

theorem interrupt_spec (h : Truthful w rest) (hapart : ∀ d ∈ underWay rest, a.claim.Apart d) :
    settingsWorld.wp G (Truthful · rest) (interrupt a) (fun _ => (Truthful · rest)) w := by
  refine wp_call fun o _ => ?_
  have hnew : Truthful (w.act (.markInterrupted a.query.key) o).2 rest := by
    refine Outcome.either (I := (Truthful · rest)) o h ?_
    exact h.descends (h.honest.markInterrupted (c := a.claim) hapart) rfl
      (Ledger.descends_update Ledger.advances_interrupted)
  exact ⟨hnew, hnew⟩

theorem record_spec (h : Truthful w rest) (hholds : w.ledger.Holds a.claim)
    (hapart : ∀ d ∈ underWay rest, a.claim.Apart d)
    {status : Nat} {body : Body} {code : Option String}
    (hfree : 400 ≤ status → status < 500 → a.operation ∉ w.published) :
    settingsWorld.wp G (Truthful · rest) (record a status body code)
      (fun _ => (Truthful · rest)) w := by
  refine wp_call fun o _ => ?_
  have hnew : Truthful (w.act (.finish a.query.key status body code) o).2 rest := by
    refine Outcome.either (I := (Truthful · rest)) o h ?_
    exact h.descends (h.honest.finish (c := a.claim) hapart hholds fun _ => hfree) rfl
      (Ledger.descends_update (Ledger.advances_finished _ _ _))
  refine ⟨hnew, ?_⟩
  cases o with
  | ok => exact hnew
  | failed applied => exact interrupt_spec hnew hapart

theorem update_cases (w : Config) (expected : Uuid) (timezone : String) (roots : List Path)
    (operation : Uuid) (o : Outcome) (skip : Nat) :
    (∃ error, w.update expected timezone roots operation o skip = (.error error, w)) ∨
      (w.update expected timezone roots operation o skip).2 = { w with
          settings := ⟨w.next + skip, timezone, roots⟩
          initialized := true
          next := w.next + skip + 1
          published := operation :: w.published } ∧
      ((w.update expected timezone roots operation o skip).1 =
        .ok ⟨w.next + skip, timezone, roots⟩ ∨
        (w.update expected timezone roots operation o skip).1 = .error .database) := by
  unfold Config.update
  split
  · exact .inl ⟨_, rfl⟩
  · split
    · cases o with
      | ok | failed => exact .inl ⟨_, rfl⟩
    · cases o with
      | ok => exact .inr ⟨rfl, .inl rfl⟩
      | failed applied =>
        cases applied with
        | true => exact .inr ⟨rfl, .inr rfl⟩
        | false => exact .inl ⟨_, rfl⟩

theorem apply_spec (h : Open a rest w) (hfree : a.operation ∉ w.published)
    (hapart : ∀ d ∈ underWay rest, a.claim.Apart d) (current : GlobalSettings) :
    settingsWorld.wp G (Truthful · rest) (apply a current) (fun _ => (Truthful · rest)) w := by
  have hrefuse : ∀ status body code, settingsWorld.wp G (Truthful · rest)
      (record a status body code) (fun _ => (Truthful · rest)) w :=
    fun status body code => record_spec h.truthful h.holds hapart fun _ _ => hfree
  refine wp_part (wp_quiet (allowedRoots_only a current) h.truthful) (fun roots w' heq => ?_)
    fun _ _ heq => heq ▸ h.truthful
  subst heq
  match roots with
  | .error (code, status) => exact hrefuse _ _ _
  | .ok roots =>
    refine wp_part (wp_quiet (removedRootReferences_only _ roots) h.truthful)
      (fun referenced w'' heq => ?_) fun _ _ heq => heq ▸ h.truthful
    subst heq
    match referenced with
    | .error _ => exact interrupt_spec h.truthful hapart
    | .ok (some apps) => exact hrefuse _ _ _
    | .ok none =>
      refine wp_call fun (o, skip) _ => ?_
      have hact : settingsWorld.act w'' (Call.update a.query.request.expectedRevision
          a.query.request.displayTimezone roots a.operation) (o, skip) =
        w''.update a.query.request.expectedRevision a.query.request.displayTimezone
          roots a.operation
          o skip := rfl
      rw [hact]
      rcases update_cases w'' a.query.request.expectedRevision a.query.request.displayTimezone roots
        a.operation o skip with ⟨error, heq⟩ | ⟨hstored, hanswer⟩
      · rw [heq]
        refine ⟨h.truthful, ?_⟩
        cases error with
        | revisionStale => exact hrefuse _ _ _
        | timezoneInvalid | database => exact interrupt_spec h.truthful hapart
      · obtain ⟨hnew, hholds⟩ := h.publishes hapart
          (Nat.le_add_right w''.next skip) a.query.request.displayTimezone roots
        rw [hstored]
        refine ⟨hnew, ?_⟩
        rcases hanswer with hanswer | hanswer
        · rw [hanswer]
          refine wp_look rfl hnew fun _ _ => record_spec hnew hholds hapart fun hge => ?_
          omega
        · rw [hanswer]
          exact interrupt_spec hnew hapart

theorem update_spec (h : Open a rest w) (hapart : ∀ d ∈ underWay rest, a.claim.Apart d) :
    settingsWorld.wp (fun w e c => finds a w e c = true) (Truthful · rest) (update a)
      (fun _ => (Truthful · rest)) w := by
  refine wp_look rfl h.truthful fun readable hc => ?_
  cases hanswer : (w.act .load readable).1 with
  | error err => exact interrupt_spec h.truthful hapart
  | ok current =>
    have hcurrent : current = w.settings := by
      cases readable with
      | false => cases hanswer
      | true =>
        have hanswer : w.load = .ok current := hanswer
        unfold Config.load at hanswer
        split at hanswer
        · exact (Except.ok.inj hanswer).symm
        · cases hanswer
    refine wp_if (fun hrevision => ?_) fun hother => ?_
    · -- The update was not stored: the revision would have moved.
      refine apply_spec h (fun hmem => ?_) hapart current
      obtain ⟨r, hr, hop, hreq, -⟩ := h.holds
      have hreq : r.request = a.query.request := hreq
      have hmoved := h.truthful.moved r (Ledger.find_some hr).1 (hop ▸ hmem)
      rw [hreq, ← hcurrent] at hmoved
      exact hmoved hrevision.symm
    · refine wp_if (fun _ => ?_) fun hdiffers => ?_
      · refine wp_look rfl h.truthful fun _ _ => ?_
        refine record_spec h.truthful h.holds hapart fun hge => ?_
        omega
      · refine record_spec h.truthful h.holds hapart fun _ _ hmem => hdiffers ?_
        have hshows : shows a.query.request .load (.ok current) = true := by
          have hc : finds a w .load readable = true := hc
          rw [finds, hanswer, List.contains_iff_mem.mpr hmem] at hc
          simpa using hc
        rw [h.again hmem, Bool.true_and]
        exact hshows

end Handler

/-! ## Every history -/

/-- `finds` as a condition on the steps of a history. -/
def Finds (t : Option Attempt) (w : Config) (e : Call) (c : settingsService.world.Choice e) :
    Prop :=
  match t with
  | some a => finds a w e c = true
  | none => True

instance (t : Option Attempt) (w : Config) (e : Call) (c : settingsService.world.Choice e) :
    Decidable (Finds t w e c) := by
  unfold Finds
  split
  · exact inferInstanceAs (Decidable (_ = true))
  · exact inferInstanceAs (Decidable True)

theorem Truthful.serving {i : Nat} {a : Attempt} (h : Truthful w ts) (hget : ts[i]? = some a) :
    Open a (ts.eraseIdx i) w ∧ ∀ d ∈ underWay (ts.eraseIdx i), a.claim.Apart d := by
  have hmem : a ∈ ts := List.mem_of_getElem? hget
  refine ⟨⟨h.forget (List.eraseIdx_sublist ts i), h.honest.under.holds a.claim ?_,
    h.again a hmem⟩, ?_⟩
  · exact List.mem_map_of_mem hmem
  · have hall : ∀ l : List Attempt, l.map Attempt.claim = l.filterMap fun a => some a.claim :=
      fun l => congrFun (List.filterMap_eq_map (f := Attempt.claim)).symm l
    have hunder := h.honest.under
    unfold underWay at hunder ⊢
    rw [hall] at hunder ⊢
    exact hunder.among (f := fun a => some a.claim) rfl hget

theorem Truthful.interruptPending (h : Truthful w []) (o : Outcome) :
    Truthful (w.act .interruptPending o).2 [] := by
  show Truthful (if o.applied then { w with ledger := w.ledger.interruptPending } else w) []
  split
  · exact h.descends h.honest.interruptPending rfl Ledger.descends_interruptPending
  · exact h

theorem Truthful.bootstrap (h : Truthful w []) (c : Choice .bootstrapBindRoots) :
    Truthful (w.act .bootstrapBindRoots c).2 [] := by
  obtain ⟨o, skip, roots⟩ := c
  show Truthful (if o.applied && !w.initialized then _ else w) []
  split
  · exact h.redraw (Nat.le_add_right _ _) rfl _
  · exact h

theorem truthful_keeps :
    settingsService.Keeps Finds (fun _ _ => True) (fun _ _ => True) Truthful where
  forget w ts i h := h.forget (List.eraseIdx_sublist ts i)
  forgetAll w ts h := h.forget (List.nil_sublist ts)
  receive q w ts h := by
    have hnone : ∀ {w'}, Truthful w' ts → Truthful w' (ts ++ []) := by
      intro w' h'
      rw [List.append_nil]
      exact h'
    refine wp_look rfl trivial fun _ _ => ?_
    refine wp_if (fun _ => ?_) fun _ => hnone h
    refine wp_call fun (o, skip) _ => ⟨trivial, ?_⟩
    obtain ⟨hsame, hadd⟩ := h.claim q o skip
    have hact : w.act (Call.claim q) (o, skip) = w.claim q o skip := rfl
    dsimp only [settingsService]
    rw [hact]
    split
    next op hres => exact hadd op false hres
    next op hres => exact hadd op true hres
    · exact hnone hsame
    · exact hnone hsame
  serve w ts i a hget h _ := by
    obtain ⟨hopen, hapart⟩ := h.serving hget
    exact wp_attempt_bind (update_spec hopen hapart) fun _ _ h => h
  boot w h := by
    refine wp_attempt_bind (P := fun _ => (Truthful · [])) ?_ fun _ _ h => h
    have hlast : ∀ w', Truthful w' [] → settingsWorld.wp (Finds none) (Truthful · [])
        (do Prog.orElse (← Prog.ask Call.interruptPending) fun _ => SettingsError.database)
        (fun _ => (Truthful · [])) w' := by
      intro w' h'
      refine wp_call fun o _ => ⟨h'.interruptPending o, ?_⟩
      exact (wp_orElse _ _ _ _).mpr ⟨fun _ _ => h'.interruptPending o, fun _ _ =>
        h'.interruptPending o⟩
    refine wp_look rfl h fun _ _ => wp_accept_bind (fun initialized _ => ?_) fun _ _ => h
    refine wp_if (fun _ => ?_) fun _ => ?_
    · refine wp_look rfl h fun _ _ => wp_accept_bind (fun _ _ => hlast w h) fun _ _ => h
    · refine wp_call fun c _ => ⟨h.bootstrap c, ?_⟩
      exact wp_accept_bind (fun _ _ => hlast _ (h.bootstrap c)) fun _ _ => h.bootstrap c
  change w ts b _ h := by
    cases b with
    | collect picked => exact h.descends (h.honest.collect _ _) rfl Ledger.descends_collect

/-- In every history in which an update that was stored finds its values when it is resumed,
no rejected update was stored. -/
theorem rejected_not_stored (timezones : List String) (settings : GlobalSettings)
    (initialized : Bool) {steps : List settingsService.Step} (h : Along settingsService.step
      (settingsService.Allowed Finds (fun _ _ => True) (fun _ _ => True))
      ⟨.start timezones settings initialized, []⟩ steps) :
    ∀ r ∈ (play settingsService.step ⟨.start timezones settings initialized, []⟩
      steps).world.ledger,
      r.rejected = true → r.operationId ∉
        (play settingsService.step ⟨.start timezones settings initialized, []⟩
          steps).world.published :=
  fun r hr => (Service.invariant truthful_keeps h
    (Truthful.start timezones settings initialized)).honest.honest r hr rfl

end SoloDock.Settings
