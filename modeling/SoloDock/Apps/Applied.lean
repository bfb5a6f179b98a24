import SoloDock.Apps.Owned
import SoloDock.Mutation.Honest

/-!
# A recorded 4xx and what was applied

Lifecycle operations and deletions make several durable changes with checks in between,
and every resumed attempt makes all its checks again, so a check can refuse an operation
that has already changed the desired state, a container or the app's registration, or that
has already stored its app or draft.

`Honest k` says that no record of a refused operation does that, for the account `k` of
what operations have done. For changes it is kept by every history in which the checks that
a first attempt makes after its desired state is stored, and those of a resumed attempt,
answer 4xx to nothing (`goesThrough`). For what is stored it is kept by every history in which
an attempt that is served after a former one has stored its app or draft recognises it
(`vouches`).
-/

namespace SoloDock.Apps

open Lib Mutation
open Lib.World
open Deploy (BindIdentity)

/-! ## Accounts -/

inductive Account where
  /-- A desired state, a container or a registration was changed. -/
  | changed
  /-- An app or a draft was stored. -/
  | published
  deriving DecidableEq, Repr

def Account.of : Account → Host → List Uuid
  | changed, w => w.changed
  | published, w => w.published

/-- The requests whose rejection the account is held against. -/
def Account.about : Account → Request → Bool
  | changed, request => !request.stores
  | published, request => request.stores

variable {a : Attempt}

theorem Stirs.account {w w' : Host} (h : Stirs a w w') (k : Account) :
    ∀ op ∈ k.of w', op ∈ k.of w ∨ op = a.operation := by
  intro op hop
  cases k with
  | changed =>
    cases h with
    | desired app desired now m action hreq hm =>
      split at hop
      · exact .inl hop
      · exact (List.mem_cons.mp hop).symm
    | composed | moved => exact (List.mem_cons.mp hop).symm
    | _ => exact .inl hop
  | published =>
    cases h with
    | created | drafted => exact (List.mem_cons.mp hop).symm
    | _ => exact .inl hop

/-! ## The invariant -/

/-- No rejected operation is in the account, and no first attempt that waits is. -/
structure Honest (k : Account) (w : Host) (ts : List Task) : Prop where
  ledger : w.ledger.Honest k.about w.next (underWay ts) (k.of w)
  drawn : ∀ op ∈ k.of w, op < w.next
  first : ∀ a, .attempt a ∈ ts → a.resumed = false → a.operation ∉ k.of w

variable {k : Account}

theorem Attended.operation_ne {w : Host} {ts : List Task} {b : Attempt} (h : Attended w ts)
    (hholds : w.ledger.Holds a.claim) (hapart : ∀ d ∈ underWay ts, a.claim.Apart d)
    (hb : .attempt b ∈ ts) : b.operation ≠ a.operation := by
  have hunder : b.claim ∈ underWay ts := List.mem_filterMap.mpr ⟨_, hb, rfl⟩
  intro heq
  obtain ⟨r, hr, hop, -⟩ := h.under.holds b.claim hunder
  obtain ⟨hmem, hat⟩ := Ledger.find_some hr
  obtain ⟨hfind, -⟩ := h.rows.pending hholds hmem (hop.trans heq)
  have hat' := (Ledger.find_some hfind).2
  exact hapart _ hunder ⟨hat'.1.symm.trans hat.1, hat'.2.symm.trans hat.2⟩

namespace Honest

variable {w w' : Host} {ts : List Task}

theorem empty : Honest k .empty [] := ⟨.nil, by cases k <;> exact nofun, nofun⟩

theorem attended (h : Honest k w ts) : Attended w ts := ⟨h.ledger.rows, h.ledger.under⟩

/-- A step that enters nothing in the account and rejects nothing. -/
theorem carry (h : Honest k w ts) {ts' : List Task} (hattended : Attended w' ts')
    (hdrawn : Drawn w ts ts') (hnext : w.next ≤ w'.next)
    (hrecords : ∀ r ∈ w'.ledger, r.rejected = true →
      ∃ s ∈ w.ledger, s.operationId = r.operationId ∧ s.request = r.request ∧ s.rejected = true)
    (haccount : k.of w' = k.of w) : Honest k w' ts' where
  ledger := by
    rw [haccount]
    exact h.ledger.frame hattended.rows hattended.under hrecords
  drawn := by
    rw [haccount]
    exact fun op hop => Nat.lt_of_lt_of_le (h.drawn op hop) hnext
  first a ha hfirst := by
    rw [haccount]
    rcases hdrawn a ha hfirst with ha | hfresh
    · exact h.first a ha hfirst
    · exact fun hop => absurd (h.drawn _ hop) (Nat.not_lt.mpr hfresh)

theorem waits {ts' : List Task} (h : Honest k w ts) (hattended : Attended w ts')
    (hdrawn : Drawn w ts ts') : Honest k w ts' :=
  h.carry hattended hdrawn (Nat.le_refl _) (fun r hr hrejected => ⟨r, hr, rfl, rfl, hrejected⟩) rfl

theorem claimed {q : Query} {ts' : List Task} (h : Honest k w ts) (hclaimed : Claimed q w w')
    (hattended : Attended w' ts') (hdrawn : Drawn w ts ts') : Honest k w' ts' := by
  cases hclaimed with
  | same => exact h.waits hattended hdrawn
  | drawn fresh hfresh =>
    exact h.carry hattended hdrawn (Nat.le_succ_of_le hfresh)
      (fun r hr hrejected => ⟨r, hr, rfl, rfl, hrejected⟩) (by cases k <;> rfl)
  | new fresh hnone hfresh hmentioned =>
    refine h.carry hattended hdrawn (Nat.le_succ_of_le hfresh) (fun r hr hrejected => ?_)
      (by cases k <;> rfl)
    rcases List.mem_append.mp hr with hr | hr
    · exact ⟨r, hr, rfl, rfl, hrejected⟩
    · cases List.mem_singleton.mp hr
      cases hrejected
  | reopened fresh r hfind hstatus hfresh =>
    refine h.carry hattended hdrawn (Nat.le_succ_of_le hfresh) (fun r hr hrejected => ?_)
      (by cases k <;> rfl)
    rcases Ledger.mem_update hr with hr | ⟨s, -, rfl⟩
    · exact ⟨r, hr, rfl, rfl, hrejected⟩
    · cases hrejected

theorem interrupt (h : Honest k w []) : Honest k w.interrupt [] := by
  cases k <;> exact ⟨h.ledger.interruptPending, h.drawn, nofun⟩

theorem housekeeps {e : Call} (he : e.Housekeeps) {c : Choice e} (h : Honest k w ts) :
    Honest k (Host.act w e c).2 ts := by
  have hkept := he.kept w c
  refine h.carry (h.attended.congr ?_ ?_) (.sublist (.refl ts)) ?_ (fun r hr hrejected => ?_) ?_
  · rw [hkept]
  · rw [hkept]
  · exact Nat.le_of_eq (by rw [hkept])
  · rw [hkept] at hr
    exact ⟨r, hr, rfl, rfl, hrejected⟩
  · rw [hkept]
    cases k <;> rfl

theorem change (h : Honest k w ts) (b : Change) : Honest k (w.change b) ts := by
  cases b with
  | previews | edit => cases k <;> exact ⟨h.ledger, h.drawn, h.first⟩
  | collect picked =>
    unfold Host.change
    dsimp only
    split
    · cases k <;> exact ⟨h.ledger.collect _ _, h.drawn, h.first⟩
    · exact h

section

variable (hapart : ∀ d ∈ underWay ts, a.claim.Apart d)

include hapart

/-- A call of a handler enters at most its own operation. -/
theorem stirs (h : Honest k w ts) (hstirs : Stirs a w w') (hholds : w.ledger.Holds a.claim) :
    Honest k w' ts := by
  have hnoted := hstirs.isNoted
  obtain ⟨f, hf, hsame, hledger⟩ := hnoted.ledger
  have hkeep : ∀ r, (f r).rejected = true → r.rejected = true := by
    intro r hrejected
    unfold Record.rejected at hrejected ⊢
    rw [(hsame r).1, (hsame r).2] at hrejected
    exact hrejected
  have hrow := Ledger.Honest.update (c := a.claim) h.ledger hf hapart hkeep
  have hown := hnoted.holds hholds
  refine ⟨?_, fun op hop => ?_, fun b hb hfirst hmem => ?_⟩
  · rw [hledger] at hown ⊢
    rw [hnoted.next]
    exact hrow.enter (c := a.claim) hown (hstirs.account k)
  · rw [hnoted.next]
    rcases hstirs.account k op hop with hop | rfl
    · exact h.drawn op hop
    · obtain ⟨r, hr, hop, -⟩ := hholds
      rw [← (show r.operationId = a.operation from hop)]
      exact h.ledger.rows.below r (Ledger.find_some hr).1
  · rcases hstirs.account k _ hmem with hmem | hop
    · exact h.first b hb hfirst hmem
    · exact h.attended.operation_ne hholds hapart hb hop

theorem markInterrupted (h : Honest k w ts) (o : Outcome) :
    Honest k (Host.act w (.markInterrupted a.route a.key) o).2 ts := by
  show Honest k (if o.applied then { w with ledger := _ } else w) ts
  split
  · cases k <;>
      exact ⟨Ledger.Honest.markInterrupted (c := a.claim) h.ledger hapart, h.drawn, h.first⟩
  · exact h

theorem finish {status : Nat} {body : Body} {code : Option String}
    (h : Honest k w ts) (hholds : w.ledger.Holds a.claim) (o : Outcome)
    (hfree : k.about a.query.request = true → 400 ≤ status → status < 500 → a.operation ∉ k.of w) :
    Honest k (Host.act w (.finish a.route a.key status body code) o).2 ts := by
  show Honest k (if o.applied then w.finish a.route a.key status body code else w) ts
  split
  · cases k <;> exact ⟨Ledger.Honest.finish (c := a.claim) h.ledger hapart hholds hfree,
      h.drawn, h.first⟩
  · exact h

end

end Honest

/-! ## A handler -/

theorem account_act {w : Host} {ph : Phase} {e : Call} (hin : e.Within a) (c : Choice e)
    (h : ph.after e = .fresh) : k.of (Host.act w e c).2 = k.of w := by
  cases e with
  | createApp | updateDraft | setDesiredState | tombstone => cases h
  | composeRun => cases ph <;> cases h
  | removeTombstone => exact hin.elim
  | _ =>
    cases k <;>
      simp only [Account.of, Host.act, Host.claim, Ledger.answered, Host.finish, Host.mark,
        Host.consumePreview, Host.insertReceipt, Host.markFinalized]
    all_goals
      repeat' split
    all_goals rfl

theorem Phase.stored_of_after {ph : Phase} {e : Call} (h : ph.after e = .stored) :
    ph = .stored ∧ ¬e.Writes := by
  cases e with
  | createApp | updateDraft | setDesiredState | tombstone => cases h
  | composeRun =>
    cases ph with
    | stored => exact ⟨rfl, id⟩
    | _ => cases h
  | _ => exact ⟨h, id⟩

/-- The metadata of the app that the operation runs carries its mark. -/
def Host.marked (w : Host) (a : Attempt) : Bool :=
  match a.query.request with
  | .lifecycle app _ => (w.metadataOf app).any fun m => m.lastOperationId == a.operation
  | _ => false

/-- The record is open; while nothing is touched, an attempt that came with nothing done
(`free`) is not in the account, and once the desired state is stored it has its mark. -/
structure Undone (k : Account) (free : Prop) (a : Attempt) (ph : Phase) (w : Host) : Prop where
  holds : w.ledger.Holds a.claim
  fresh : free → ph = .fresh → a.operation ∉ k.of w
  mark : ph = .stored → w.marked a = true

variable {G : Host → (e : Call) → Choice e → Prop} {rest : List Task} {free : Prop} {ph : Phase}
  {w : Host}

theorem Undone.step {e : Call} {c : Choice e} (h : Undone k free a ph w) (hin : e.Within a) :
    Undone k free a (ph.after e) (Host.act w e c).2 where
  holds := (hin.stirs w c).isNoted.holds h.holds
  fresh hfree hph := by
    rw [account_act hin c hph]
    exact h.fresh hfree (Phase.fresh_of_after hph).1
  mark hph := by
    obtain ⟨hstored, hwrites⟩ := Phase.stored_of_after hph
    unfold Host.marked Host.metadataOf
    rw [live_act w c hwrites]
    exact h.mark hstored

theorem honest_ends (hapart : ∀ d ∈ underWay rest, a.claim.Apart d) :
    Ends a G (Honest k · rest) (fun ph w => Honest k w rest ∧ Undone k free a ph w)
      (Honest k · rest) where
  crashOpen _ _ hw := hw.1
  crashClosed _ hw := hw
  step ph w e c _ hin hw := ⟨hw.1.stirs hapart (hin.stirs w c) hw.2.holds, hw.2.step hin⟩
  escape ph w e c _ hw hesc := by
    rw [escapes_quiet hesc]
    exact hw.1
  interrupt ph w c _ hw := hw.1.markInterrupted hapart c
  again w c _ hw := hw.markInterrupted hapart c
  succeed ph w status body c _ hstatus _ hw := by
    refine hw.1.finish hapart hw.2.holds c fun _ hge => ?_
    omega
  finalize app w _ hw :=
    wp_of_only (finalizeAppUnregistration_only app a.operation)
      (fun w e c he _ hw => hw.housekeeps he) (fun _ hw => hw) hw

/-- An attempt that came with nothing done may be refused while it has touched nothing; the
other refusals are to be 5xx. -/
theorem honest_walk (free : Prop) (binds : List BindIdentity)
    (hapart : ∀ d ∈ underWay rest, a.claim.Apart d)
    (hstores : k.about a.query.request = true → a.query.request.stores = true → free)
    (hearly : k.about a.query.request = true → ∀ w e c s, G w e c →
      refusal binds a w e (Host.act w e c).1 = some s → free ∨ 500 ≤ s)
    (hlate : k.about a.query.request = true → ∀ w e c s, G w e c → e.Late → w.marked a = true →
      refusal binds a w e (Host.act w e c).1 = some s → 500 ≤ s) :
    Walk a binds G (Honest k · rest) (fun ph w => Honest k w rest ∧ Undone k free a ph w)
      (Honest k · rest)
      (fun s w => k.about a.query.request = true → s < 500 → a.operation ∉ k.of w) where
  toEnds := honest_ends hapart
  stored ph w app action m hreq hm hmark hw := by
    refine ⟨hw.1, hw.2.holds, nofun, fun _ => ?_⟩
    simp [Host.marked, hreq, hm, hmark]
  fresh hreq w s hw habout _ := hw.2.fresh (hstores habout hreq) rfl
  early w e c s hc hw hr habout hlt := by
    have haccount : k.of (Host.act w e c).2 = k.of w := by
      rw [refusal_quiet hr]
      cases k <;> rfl
    rw [haccount]
    rcases hearly habout w e c s hc hr with hfree | hge
    · exact hw.2.fresh hfree rfl
    · omega
  late app action hreq w e c s hc hlate' hw hr w' habout hlt := by
    have hge := hlate habout w e c s hc hlate' (hw.2.mark rfl) hr
    omega
  uniform w s s' hs hm habout _ := hm habout hs
  refuse ph w status body code c _ _ hm hw :=
    hw.1.finish hapart hw.2.holds c fun habout _ => hm habout

/-! ## Changes -/

/-- Of a start, stop, restart or deletion: a resumed attempt is refused with 5xx only, and a
first attempt is refused with 5xx only by the checks that follow `set_desired_state`, where
the metadata carries its mark. `binds` are the bind sources a restart works with. -/
def goesThrough (binds : List BindIdentity) (a : Attempt) (w : Host) (e : Call) (c : Choice e) :
    Bool :=
  a.query.request.stores || (!a.resumed && !(decide e.Late && w.marked a)) ||
    (refusal binds a w e (Host.act w e c).1).all fun status => 500 ≤ status

/-- `goesThrough` as a condition on the steps of a history; an operation works with the bind
sources `binds` gives it. -/
def GoesThrough (binds : Uuid → List BindIdentity) (t : Option Task) (w : Host) (e : Call)
    (c : appService.world.Choice e) : Prop :=
  match t with
  | some (.attempt a) => goesThrough (binds a.operation) a w e c = true
  | _ => True

instance (binds : Uuid → List BindIdentity) (t : Option Task) (w : Host) (e : Call)
    (c : appService.world.Choice e) : Decidable (GoesThrough binds t w e c) := by
  unfold GoesThrough
  split
  · exact inferInstanceAs (Decidable (_ = true))
  · exact inferInstanceAs (Decidable True)

section

variable {binds : List BindIdentity} {e : Call} {c : Choice e} {s : Nat}
  (hreq : a.query.request.stores = false) (h : goesThrough binds a w e c = true)
  (hr : refusal binds a w e (Host.act w e c).1 = some s)

include hreq h hr

theorem goesThrough_early : a.resumed = false ∨ 500 ≤ s := by
  cases hresumed : a.resumed with
  | false => exact .inl rfl
  | true => simpa [goesThrough, hreq, hr, hresumed] using h

theorem goesThrough_late (hlate : e.Late) (hmark : w.marked a = true) : 500 ≤ s := by
  simpa [goesThrough, hreq, hr, hlate, hmark] using h

end

/-- Every step keeps the account of changed desired states honest, if no attempt of a lifecycle
request is refused once it has changed one. -/
theorem changed_stable (binds : Uuid → List BindIdentity) :
    Stable (GoesThrough binds) (fun _ _ => True) (fun _ _ => True) (Honest .changed) where
  attended _ _ h := h.attended
  waits _ _ _ h := h.waits
  claimed _ _ _ _ _ h := h.claimed
  interrupt _ h := h.interrupt
  housekeeps _ _ _ _ _ _ he h := h.housekeeps he
  handle w ts i a hget h _ := by
    have hapart := h.attended.others hget
    have hreq (habout : Account.about .changed a.query.request = true) :
        a.query.request.stores = false := by simpa [Account.about] using habout
    refine (honest_walk (k := .changed) (a.resumed = false) (binds a.operation) hapart
      (fun habout hstores => ?_) (fun habout w e c s hc hr => goesThrough_early (hreq habout) hc hr)
      fun habout w e c s hc hlate hmark hr =>
        goesThrough_late (hreq habout) hc hr hlate hmark).handle_walk
      ⟨h.waits (h.attended.forget i) (.sublist (List.eraseIdx_sublist ts i)),
        h.attended.holds hget, fun hfirst _ => ?_, nofun⟩
    · rw [hreq habout] at hstores
      cases hstores
    · exact h.first a (List.mem_of_getElem? hget) hfirst
  change _ _ b _ h := h.change b

def sampleStart : Query := ⟨"start-00000000001", .lifecycle 0 .start, "session", 3⟩

/-- The first app is there, and its start is claimed. -/
def startHistory : List appService.Step :=
  [.receive (.request sampleCreate) calm, .serve 0 calm, .receive (.request sampleStart) calm]

/-- The lock of the app is taken. -/
def busyApp : appWorld.Script := fun _ e =>
  match e with
  | .tryApp _ => false
  | e => smooth e

/-- The lock of Compose is taken. -/
def busyCompose : appWorld.Script := fun _ e =>
  match e with
  | .tryCompose => false
  | e => smooth e

/-- Compose is not there. -/
def unready : appWorld.Script := fun _ e =>
  match e with
  | .composeUnready => some "COMPOSE_UNAVAILABLE"
  | e => smooth e

/-- The process dies after the desired state is stored; the start is resumed and refused with a
503, and another start is rejected at its first lock. -/
def resumedStart : List appService.Step :=
  startHistory ++ [.giveUp 0 9 calm, .restart calm, .receive (.request sampleStart) calm,
    .serve 0 unready, .receive (.request { sampleStart with key := "start-00000000002" }) calm,
    .serve 0 busyApp]

/-- What an attempt finds whose former attempt has stored its app or draft: the app's lock is
free, the preset can still be rendered, and the metadata carries its mark and asks for no
acknowledgement; a draft's metadata may also be unreadable. -/
def vouches (a : Attempt) : (e : Call) → Answer e → Bool
  | .tryApp _, free => free
  | .renderPreset _ _, rendered => rendered.isOk
  | .readMetadata _, found =>
    match a.query.request, found with
    | .create _, .ok m => createdBy a.operation m
    | .createFromPreset _ _, .ok m => presetBy a.operation m
    | .updateDraft _ _ input, .ok m =>
      draftedBy a.operation m &&
        !(!m.autoDeployEnabled && input.autoDeployEnabled && !input.autoDeployAcknowledged)
    | .updateDraft _ _ _, .error error => error ≠ .notFound
    | .lifecycle _ _, _ | .delete _ _ _ _ _, _ => true
    | _, .error _ => false
  | _, _ => true

/-- `vouches` as a condition on the steps of a history, for attempts that are served in a world
in which a former attempt has stored the app or the draft. -/
def Vouches (w₀ : Host) (t : Option Task) (w : Host) (e : Call) (c : appService.world.Choice e) :
    Prop :=
  match t with
  | some (.attempt a) => a.operation ∈ w₀.published → vouches a e (Host.act w e c).1 = true
  | _ => True

instance (w₀ : Host) (t : Option Task) (w : Host) (e : Call) (c : appService.world.Choice e) :
    Decidable (Vouches w₀ t w e c) := by
  unfold Vouches
  split
  · exact inferInstanceAs (Decidable (_ → _ = true))
  · exact inferInstanceAs (Decidable True)

section Vouched

variable {C D : Host → Prop} {P : Phase → Host → Prop} (h : Ends a G C P D)
  (hvouch : ∀ w e c, G w e c → vouches a e (Host.act w e c).1 = true) (hw : P .fresh w)

include h hvouch hw

theorem create_vouched {slug : String} (hreq : a.query.request = .create slug) :
    Walks G C D (create a slug) w := by
  have hroute app : a.route ≠ .app app := by simp [Attempt.route, hreq, Request.route]
  refine h.look rfl hw fun readable hc => ?_
  have hfound := hvouch w _ _ hc
  split
  next existing hread =>
    rw [hread] at hfound
    simp only [vouches, hreq] at hfound
    exact wp_if (fun _ => h.finishCreated_walk hw hroute) fun hno => absurd hfound hno
  next error hread =>
    rw [hread] at hfound
    simp [vouches, hreq] at hfound

theorem createFromPreset_vouched {slug preset : String}
    (hreq : a.query.request = .createFromPreset slug preset) :
    Walks G C D (createFromPreset a slug preset) w := by
  have hroute app : a.route ≠ .app app := by simp [Attempt.route, hreq, Request.route]
  refine h.look rfl hw fun rendered hc => ?_
  cases rendered with
  | error code => cases hvouch w (.renderPreset slug preset) (.error code) hc
  | ok draft =>
    refine h.look rfl hw fun readable hc => ?_
    have hfound := hvouch w _ _ hc
    split
    next existing hread =>
      rw [hread] at hfound
      simp only [vouches, hreq] at hfound
      exact wp_if (fun _ => h.finishCreated_walk hw hroute) fun hno => absurd hfound hno
    next error hread =>
      rw [hread] at hfound
      simp [vouches, hreq] at hfound

theorem updateDraft_vouched {app : Uuid} {expected : Option Uuid} {input : DraftInput}
    (hreq : a.query.request = .updateDraft app expected input) :
    Walks G C D (updateDraft a app expected input) w := by
  have hroute app : a.route ≠ .app app := by simp [Attempt.route, hreq, Request.route]
  refine h.look rfl hw fun free hc => ?_
  obtain rfl : free = true := hvouch w (.tryApp app) free hc
  refine h.look rfl hw fun readable hc => ?_
  have hfound := hvouch w _ _ hc
  split
  next hread =>
    rw [hread] at hfound
    simp [vouches, hreq] at hfound
  · exact h.interrupted hw
  next current hread =>
    rw [hread] at hfound
    simp only [vouches, hreq, Bool.and_eq_true, Bool.not_eq_true'] at hfound
    refine wp_if (fun hack => ?_) fun _ => wp_if (fun hmark => ?_) fun hno => absurd hfound.1 hno
    · rw [hfound.2] at hack
      cases hack
    · exact h.replayDraft_walk hw hroute (readMetadata_ok hread) hmark

/-- An attempt that finds what a former one has stored is not refused. -/
theorem handle_vouched (hstores : a.query.request.stores = true) : Walks G C D (handle a) w := by
  unfold handle
  split
  next slug hreq => exact create_vouched h hvouch hw hreq
  next slug preset hreq => exact createFromPreset_vouched h hvouch hw hreq
  next app expected input hreq => exact updateDraft_vouched h hvouch hw hreq
  all_goals
    next hreq =>
      rw [hreq] at hstores
      cases hstores

end Vouched

theorem published_stable (w₀ : Host) :
    Stable (Vouches w₀) (fun w _ => w = w₀ ∧ True) (fun _ _ => True) (Honest .published) where
  attended _ _ h := h.attended
  waits _ _ _ h := h.waits
  claimed _ _ _ _ _ h := h.claimed
  interrupt _ h := h.interrupt
  housekeeps _ _ _ _ _ _ he h := h.housekeeps he
  handle w ts i a hget h hw := by
    obtain ⟨rfl, -⟩ := hw
    have hapart := h.attended.others hget
    have hholds := h.attended.holds hget
    have hrest := h.waits (h.attended.forget i) (.sublist (List.eraseIdx_sublist ts i))
    by_cases hstored : a.query.request.stores = true ∧ a.operation ∈ w.published
    · exact handle_vouched (P := fun ph w => Honest .published w (ts.eraseIdx i) ∧
        Undone .published False a ph w) (honest_ends hapart) (fun _ _ _ hc => hc hstored.2)
        ⟨hrest, hholds, False.elim, nofun⟩ hstored.1
    · refine (honest_walk (k := .published) (a.query.request.stores = true) [] hapart
        (fun habout _ => habout) (fun habout _ _ _ _ _ _ => .inl habout)
        fun habout _ e _ _ _ hlate hmark _ => ?_).handle_walk
        ⟨hrest, hholds, fun hreq _ hmem => hstored ⟨hreq, hmem⟩, nofun⟩
      -- Only a running app's metadata carries the mark of a stored desired state.
      unfold Host.marked at hmark
      split at hmark
      next hreq =>
        rw [hreq] at habout
        cases habout
      · cases hmark
  change _ _ b _ h := h.change b

/-- In every history in which an attempt recognises the app or the draft that a former attempt
has stored, no rejected operation has stored one. -/
theorem rejected_not_published {steps : List appService.Step}
    (h : Along appService.step
      (fun s => appService.Allowed (Vouches s.world) (fun _ _ => True) (fun _ _ => True) s)
      ⟨.empty, []⟩ steps) :
    ∀ r ∈ (play appService.step ⟨.empty, []⟩ steps).world.ledger, r.request.stores = true →
      r.rejected = true →
      r.operationId ∉ (play appService.step ⟨.empty, []⟩ steps).world.published :=
  (Service.invariant_from (fun w => (published_stable w).keeps) h Honest.empty).ledger.honest

end SoloDock.Apps
