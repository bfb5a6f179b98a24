import SoloDock.Apps.World

/-!
# One walk through every handler

The statements about whole histories of requests all follow a handler from its claim to
its end: its calls keep something while the operation is open, each way of ending closes
it, and where the handler refuses the request, something must not have happened yet.
`Ends` collects what such an argument has to show about single calls, `Walk` adds what it
has to show where a request is refused, and `handle_walk` is the argument, once, for every
handler and every path through it. A handler has come to a `Phase`: a request may be
refused while nothing of the app is touched, and an operation on a running app also after
its desired state is stored.

`refusal` is what a check of such an operation or of a deletion leads to: the status the
request is refused with when the check answers like this. `escapes` are the answers after
which a handler returns without recording anything.
-/

namespace SoloDock.Apps

open Lib Mutation Docker
open Lib.World
open Deploy (BindIdentity DesiredState)

/-! ## What an attempt may ask for -/

namespace Attempt

abbrev route (a : Attempt) : Route := a.query.request.route

abbrev key (a : Attempt) : String := a.query.key

/-- The row the attempt works for. -/
def claim (a : Attempt) : AppClaim := ⟨a.route, a.key, a.operation, a.query.request⟩

end Attempt

/-- The calls of an attempt's handler before it ends: it writes under its own operation,
about its own app, and to its own record. -/
def Call.Within (a : Attempt) : Call → Prop
  | .claim _ => False
  | .finish _ _ _ _ _ => False
  | .markInterrupted _ _ => False
  | .interruptPending => False
  | .markEffectStarted route key _ _ => route = a.route ∧ key = a.key
  | .markEffectObserved route key _ => route = a.route ∧ key = a.key
  | .markEffectCompleted route key => route = a.route ∧ key = a.key
  | .createApp _ operation _ => operation = a.operation ∧ (a.route = .apps ∨ a.route = .fromPreset)
  | .updateDraft app _ operation _ => operation = a.operation ∧ a.route = .draft app
  | .setDesiredState app _ operation =>
    operation = a.operation ∧ ∃ action, a.query.request = .lifecycle app action
  | .composeRun _ app operation =>
    operation = a.operation ∧ (a.route = .app app ∨ ∃ action, a.route = .action app action)
  | .tombstone app operation => operation = a.operation ∧ a.route = .app app
  | .removeTombstone _ _ => False
  | .insertReceipt _ _ => False
  | .markFinalized _ _ => False
  | _ => True

/-- The preview a deletion was confirmed with. -/
def Host.previewOf (w : Host) (token : String) (app : Uuid) : Option Preview :=
  w.previews.find? fun p => p.token == token && p.app == app

/-- The request stores an app or a draft. -/
def Request.stores : Request → Bool
  | .create _ => true
  | .createFromPreset _ _ => true
  | .updateDraft _ _ _ => true
  | .lifecycle _ _ => false
  | .delete _ _ _ _ _ => false

/-- The status a start, stop, restart or deletion is refused with after this answer, if it
is. `binds` are the bind sources a restart works with. -/
def refusal (binds : List BindIdentity) (a : Attempt) (w : Host) :
    (e : Call) → Answer e → Option Nat
  | .tryApp _, free => if free then none else some 409
  | .tryCompose, free => if free then none else some 409
  | .composeUnready, code => code.map fun _ => 503
  | .deadlinePassed, passed => if passed then some 503 else none
  | .readMetadata _, answer => if answer.isOk then none else some 500
  | .loadVerified which _, answer =>
    match answer, a.query.request with
    | .error code, .lifecycle _ .stop =>
      if code = "APP_DEPLOY_REQUIRED" ∧ which = .activeForStop then none
      else some (mutationStatus code)
    | .error code, _ => some (mutationStatus code)
    | .ok verified, .lifecycle _ action =>
      if verified.pendingReleaseId.isSome ∧ action ≠ .stop then some 409
      else if action = .restart ∧ verified.bindIdentities ≠ binds then
        some (mutationStatus "BIND_CHANGED")
      else none
    | .ok _, _ => none
  | .validateRuntimePaths _, .error code => some (mutationStatus code)
  | .validateBindPlan _, .error code => some (mutationStatus code)
  | .mutationContainer _ _, current =>
    match a.query.request with
    | .lifecycle _ action =>
      match lifecyclePlan action current with
      | .refuse _ status => some status
      | .proceed _ _ => none
    | _ => none
  | .observeAgainst marker _ _, observed =>
    match a.query.request with
    | .lifecycle _ action =>
      if (resumedCompose action marker observed none).isSome then none else some 409
    | _ => none
  | .containerIs _ _ _, same => if same then none else some 409
  | .validateResources _ _ _, .error (_, status) => some status
  | .ensureForApp _ _, .error _ => some 409
  | .revalidateBinds _, same =>
    if same then none else some (mutationStatus "BIND_CHANGED")
  | .cleanupInProgress _, .ok count => if count = 0 then none else some 409
  | .preview _ _, answer =>
    match a.query.request, answer with
    | .delete app token slug expected remove, .ok (some p) =>
      if previewFits ⟨app, token, slug, expected, remove⟩ a.query.session p then none else some 409
    | .delete _ _ _ _ _, .ok none => some 409
    | _, _ => none
  | .appDirectoryExists _, there =>
    match a.query.request with
    | .delete app token _ _ _ =>
      (w.previewOf token app).bind fun p =>
        if there then if p.consumed && !a.resumed then some 409 else none
        else if a.resumed then if p.consumed then none else some 409
        else some 404
    | _ => none
  | .nowUtc, now =>
    match a.query.request with
    | .delete app token _ _ _ =>
      (w.previewOf token app).bind fun p =>
        if !p.consumed && p.expiresAt ≤ now then some 409 else none
    | _ => none
  | .deletionSnapshot _ _, answer =>
    match a.query.request with
    | .delete app token slug expected remove =>
      (w.previewOf token app).bind fun p =>
        match answer with
        | .error _ => some 409
        | .ok snapshot =>
          let removed := removalAlreadyApplied a ⟨app, token, slug, expected, remove⟩ p
            snapshot.facts.containerIds
          if deletionFactsMatch snapshot.facts p.facts
              (if removed then some p.containerIds else none) then none
          else some 409
    | _ => none
  | .consumePreview _, .ok updated => if updated = 1 then none else some 409
  | _, _ => none

/-- Answers after which a handler returns without touching its record. -/
def escapes (a : Attempt) (w : Host) : (e : Call) → Answer e → Bool
  | .scanSlugs, .error _ => a.route = .fromPreset
  | .tryApp _, free => a.route = .fromPreset && !free
  | .readMetadata _, .error .io => a.route = .fromPreset && w.isLive a.operation
  | .validateRegistryCredential _, valid => !valid
  | .loadConfig app _, .ok _ =>
    (w.metadataOf app).any fun m => draftedBy a.operation m && m.discoveryImageRef.isNone
  | _, _ => false

/-- The checks that a start, stop or restart makes after its desired state is stored. -/
def Call.Late : Call → Prop
  | .composeUnready => True
  | .tryCompose => True
  | .validateResources _ _ _ => True
  | .ensureForApp _ _ => True
  | .containerIs _ _ _ => True
  | .deadlinePassed => True
  | .revalidateBinds _ => True
  | .loadVerified _ _ => True
  | .validateBindPlan _ => True
  | _ => False

instance (e : Call) : Decidable e.Late := by
  unfold Call.Late
  split <;> infer_instance

/-! ## What has to be shown about single calls -/

/-- How far a handler has come: it has touched nothing of the app, it may have, or the
desired state is stored with the operation's mark. -/
inductive Phase where
  | fresh
  | begun
  | stored
  deriving DecidableEq, Repr

def Phase.after (ph : Phase) : Call → Phase
  | .createApp _ _ _ => .begun
  | .updateDraft _ _ _ _ => .begun
  | .setDesiredState _ _ _ => .begun
  | .tombstone _ _ => .begun
  | .composeRun _ _ _ =>
    match ph with
    | .stored => .stored
    | _ => .begun
  | _ => ph

/-- `P ph` holds while the operation is open and its handler has come to `ph`, `D` once the
handler has ended it, and `C` is what a crash may leave. -/
structure Ends (a : Attempt) (G : Host → (e : Call) → Choice e → Prop) (C : Host → Prop)
    (P : Phase → Host → Prop) (D : Host → Prop) : Prop where
  crashOpen : ∀ ph w, P ph w → C w
  crashClosed : ∀ w, D w → C w
  step : ∀ ph w e c, G w e c → e.Within a → P ph w → P (ph.after e) (Host.act w e c).2
  escape : ∀ ph w e c, G w e c → P ph w → escapes a w e (Host.act w e c).1 = true →
    D (Host.act w e c).2
  interrupt : ∀ ph w c, G w (.markInterrupted a.route a.key) c → P ph w →
    D (Host.act w (.markInterrupted a.route a.key) c).2
  /-- The record could not be finished, and is left as it is. -/
  again : ∀ w c, G w (.markInterrupted a.route a.key) c → D w →
    D (Host.act w (.markInterrupted a.route a.key) c).2
  succeed : ∀ ph w status body c, G w (.finish a.route a.key status body none) c → status < 400 →
    (∀ app, a.route = .app app →
      status = 200 ∧ body.unregisters app = true ∧ w.hasTombstone app a.operation = true) →
    P ph w → D (Host.act w (.finish a.route a.key status body none) c).2
  finalize : ∀ app w, a.route = .app app → D w →
    appWorld.wp G C (finalizeAppUnregistration app a.operation) (fun _ => D) w

/-- `M s` says that the operation may still be refused with status `s`. -/
structure Walk (a : Attempt) (binds : List BindIdentity)
    (G : Host → (e : Call) → Choice e → Prop) (C : Host → Prop) (P : Phase → Host → Prop)
    (D : Host → Prop) (M : Nat → Host → Prop) : Prop extends Ends a G C P D where
  /-- The metadata carries the operation's mark. -/
  stored : ∀ ph w app action m, a.query.request = .lifecycle app action →
    w.metadataOf app = some m → m.lastOperationId = a.operation → P ph w → P .stored w
  fresh : a.query.request.stores = true → ∀ w s, P .fresh w → M s w
  early : ∀ w e c s, G w e c → P .fresh w → refusal binds a w e (Host.act w e c).1 = some s →
    M s (Host.act w e c).2
  late : ∀ app action, a.query.request = .lifecycle app action → ∀ w e c s, G w e c → e.Late →
    P .stored w → refusal binds a w e (Host.act w e c).1 = some s → ∀ w', M s w'
  /-- What may be refused with one 4xx status may be refused. -/
  uniform : ∀ w s s', s < 500 → M s w → M s' w
  refuse : ∀ ph w status body code c, G w (.finish a.route a.key status body (some code)) c →
    (∀ app, a.route = .app app → 400 ≤ status) → M status w → P ph w →
    D (Host.act w (.finish a.route a.key status body (some code)) c).2

theorem mutationStatus_ge {code : String} : 400 ≤ mutationStatus code := by
  unfold mutationStatus
  repeat' split
  all_goals decide

variable {w : Host} {app op : Uuid} {m : Metadata} {c : Choice (.readMetadata app)}
  {error : StoreError}

theorem isLive_of_metadataOf (h : w.metadataOf app = some m) : w.isLive app = true :=
  List.any_eq_true.mpr ⟨m, List.mem_of_find?_eq_some h, by simpa using List.find?_some h⟩

theorem readMetadata_ok
    (hc : (Host.act w (.readMetadata app) c).1 = .ok m) : w.metadataOf app = some m := by
  cases c with
  | false => cases hc
  | true =>
    cases hread : w.metadataOf app with
    | none => simp [Host.act, hread] at hc
    | some m' => simpa [Host.act, hread] using hc

theorem readMetadata_error (hc : (Host.act w (.readMetadata app) c).1 = .error error)
    (hlive : w.isLive app = true) : error = .io := by
  cases c with
  | false =>
    cases hc
    rfl
  | true =>
    obtain ⟨m, hm⟩ := Option.isSome_iff_exists.mp
      (List.find?_isSome.mpr (List.any_eq_true.mp hlive))
    have hm : w.metadataOf app = some m := hm
    simp [Host.act, hm] at hc

theorem createApp_conflict {slug : String} {draft : Option Draft}
    {c : Choice (.createApp slug op draft)}
    (hc : (Host.act w (.createApp slug op draft) c).1 = .error .appConflict) :
    (Host.act w (.createApp slug op draft) c).2 = w ∧ w.isLive op = true := by
  obtain ⟨o, now⟩ := c
  have hc : (w.createApp slug op draft o now).1 = .error .appConflict := hc
  show (w.createApp slug op draft o now).2 = w ∧ _
  unfold Host.createApp at hc ⊢
  split at hc
  · cases hc
  next happlied =>
    rw [if_neg happlied]
    split at hc
    next hlive => exact ⟨by rw [if_pos hlive], hlive⟩
    · cases o <;> cases hc

theorem updateDraft_refused {expected : Option Uuid} {draft : Draft}
    {c : Choice (.updateDraft app expected op draft)}
    (hc : (Host.act w (.updateDraft app expected op draft) c).1 = .error error)
    (herror : error = .revisionStale ∨ error = .configRevisionConflict) :
    (Host.act w (.updateDraft app expected op draft) c).2 = w := by
  obtain ⟨o, conflict, now⟩ := c
  have hc : (w.updateDraft app expected op draft o conflict now).1 = .error error := hc
  show (w.updateDraft app expected op draft o conflict now).2 = w
  unfold Host.updateDraft at hc ⊢
  split at hc
  · rfl
  next m _ =>
    split at hc
    next hstale => rw [if_pos hstale]
    next hstale =>
      rw [if_neg hstale]
      split at hc
      next hconflict => rw [if_pos hconflict]
      · cases o with
        | ok => cases hc
        | failed applied =>
          cases hc
          rcases herror with h | h <;> cases h

theorem metadataOf_edit (w : Host) (app : Uuid) (f : Metadata → Metadata) :
    (w.edit app f).metadataOf app = (w.metadataOf app).map fun m => { f m with id := app } := by
  unfold Host.metadataOf Host.edit
  rw [List.find?_map]
  have hsame : ((fun m : Metadata => m.id == app) ∘ fun m : Metadata =>
      if m.id = app then { f m with id := app } else m) = fun m => m.id == app := by
    funext m
    dsimp only [Function.comp]
    split
    next heq => simp [heq]
    · rfl
  rw [hsame]
  cases hfind : w.live.find? fun m => m.id == app with
  | none => rfl
  | some m =>
    have hid : m.id = app := by simpa using List.find?_some hfind
    simp [hid]

/-- The desired state is stored with the operation's mark. -/
theorem marked_of_stored {desired : DesiredState} {c : Choice (.setDesiredState app desired op)}
    (hc : (Host.act w (.setDesiredState app desired op) c).1 = .ok m) :
    ∃ m', (Host.act w (.setDesiredState app desired op) c).2.metadataOf app = some m' ∧
      m'.lastOperationId = op := by
  obtain ⟨o, now⟩ := c
  have hc : (w.setDesiredState app desired op o now).1 = .ok m := hc
  show ∃ m', (w.setDesiredState app desired op o now).2.metadataOf app = some m' ∧ _
  unfold Host.setDesiredState at hc ⊢
  split at hc
  · cases hc
  next m0 hm0 =>
    cases o with
    | failed applied => cases hc
    | ok =>
      refine ⟨{ Host.withDesired desired op now m0 with id := app }, ?_, rfl⟩
      show (w.edit app (Host.withDesired desired op now)).metadataOf app = _
      rw [metadataOf_edit, hm0]
      rfl

theorem hasTombstone_of_read {c : Choice (.readTombstoneMetadata app op)}
    (hc : (Host.act w (.readTombstoneMetadata app op) c).1 = .ok m) :
    w.hasTombstone app op = true := by
  cases c with
  | false => cases hc
  | true =>
    have hc : w.readTombstoneMetadata app op = .ok m := hc
    unfold Host.readTombstoneMetadata at hc
    split at hc
    · cases hc
    next t ht =>
      exact List.any_eq_true.mpr ⟨t, List.mem_of_find?_eq_some ht, by
        simpa using List.find?_some ht⟩

theorem hasTombstone_of_tombstone {c : Choice (.tombstone app op)}
    (hc : (Host.act w (.tombstone app op) c).1 = .ok ()) :
    (Host.act w (.tombstone app op) c).2.hasTombstone app op = true := by
  cases c with
  | failed => cases hc
  | marked now => cases hc
  | renamed now rest synced =>
    have hc : (w.tombstone app op (.renamed now rest synced)).1 = .ok () := hc
    show (w.tombstone app op (.renamed now rest synced)).2.hasTombstone app op = true
    unfold Host.tombstone at hc ⊢
    dsimp only at hc ⊢
    split at hc
    · cases hc
    next m _ =>
      split at hc
      · cases hc
      next hnone =>
        rw [if_neg hnone]
        exact List.any_eq_true.mpr ⟨_, List.mem_cons_self, by simp⟩

/-- Whatever `G` lets the calls answer, the program ends in `D`, and a crash finds `C`. -/
abbrev Walks (G : Host → (e : Call) → Choice e → Prop) (C D : Host → Prop) {ε α : Type}
    (p : Prog Call Answer ε α) (w : Host) : Prop :=
  appWorld.wp G C p (fun _ => D) w

/-- The handler has the request's own data. -/
structure Deleting (a : Attempt) (d : Deletion) : Prop where
  request : a.query.request = .delete d.app d.token d.slug d.expected d.removeContainer

theorem Deleting.route {a : Attempt} {d : Deletion} (hdel : Deleting a d) :
    a.route = .app d.app := by
  rw [Attempt.route, hdel.request]
  rfl

namespace Ends

variable {a : Attempt} {G : Host → (e : Call) → Choice e → Prop} {C : Host → Prop}
  {P : Phase → Host → Prop} {D : Host → Prop} (h : Ends a G C P D) {w : Host} {ph : Phase}

include h

variable {β : Type} {e : Call} {k : Answer e → Handler β} {Q : Except ApiError β → Host → Prop}
  {status : Nat} {body : Body}

theorem ask (hin : e.Within a) (hw : P ph w)
    (hk : ∀ c, G w e c → P (ph.after e) (Host.act w e c).2 →
      appWorld.wp G C (k (Host.act w e c).1) Q (Host.act w e c).2) :
    appWorld.wp G C (Prog.ask e >>= k) Q w :=
  wp_call fun c hc =>
    have hw' := h.step ph w e c hc hin hw
    ⟨h.crashOpen _ _ hw', hk c hc hw'⟩

theorem look (hquiet : (fun c => (Host.act w e c).2) = fun _ => w) (hw : P ph w)
    (hk : ∀ c, G w e c → appWorld.wp G C (k (Host.act w e c).1) Q w) :
    appWorld.wp G C (Prog.ask e >>= k) Q w :=
  wp_look hquiet (h.crashOpen ph w hw) hk

theorem interrupted (hw : P ph w) : Walks G C D (interruptInternal a) w :=
  wp_call fun c hc =>
    have hd := h.interrupt ph w c hc hw
    ⟨h.crashClosed _ hd, hd⟩

/-- The end of a handler: the record is finished, or an attempt is made to interrupt it. -/
theorem record_walk {code : Option String}
    (hd : ∀ c, G w (.finish a.route a.key status body code) c →
      D (Host.act w (.finish a.route a.key status body code) c).2) :
    Walks G C D (record a status body code) w := by
  refine wp_call fun c hc => ?_
  have hclosed := hd c hc
  refine ⟨h.crashClosed _ hclosed, ?_⟩
  cases c with
  | ok => exact hclosed
  | failed applied =>
    refine wp_call fun c' hc' => ?_
    have hagain := h.again _ c' hc' hclosed
    exact ⟨h.crashClosed _ hagain, hagain⟩

theorem finishJson_walk (hw : P ph w) (hstatus : status < 400)
    (happ : ∀ app, a.route ≠ .app app) : Walks G C D (finishJson a status body) w :=
  h.record_walk fun c hc =>
    h.succeed ph w status body c hc hstatus (fun app hroute => absurd hroute (happ app)) hw

theorem finishCreated_walk (hw : P ph w) (happ : ∀ app, a.route ≠ .app app) :
    Walks G C D (finishCreated a m) w := by
  refine h.look rfl hw fun warning _ => ?_
  exact h.finishJson_walk hw (by decide) happ

theorem finishDraft_walk (hw : P ph w) (happ : ∀ app, a.route ≠ .app app) :
    Walks G C D (finishDraft a m) w := by
  refine h.look rfl hw fun warning _ => ?_
  exact h.finishJson_walk hw (by decide) happ

theorem replayDraft_walk (hw : P ph w) (happ : ∀ app, a.route ≠ .app app)
    (hread : w.metadataOf app = some m) (hmark : draftedBy a.operation m = true) :
    Walks G C D (replayDraft a app m) w := by
  refine h.look rfl hw fun loaded hc => ?_
  split
  · exact h.interrupted hw
  next hloaded =>
    refine wp_if (fun hbare => ?_) fun _ => ?_
    · exact h.escape ph w _ loaded hc hw (by simp [escapes, hloaded, hread, hmark, hbare])
    · refine h.look rfl hw fun normalized _ => ?_
      split
      · exact h.interrupted hw
      · exact h.finishDraft_walk hw happ

section Delete

variable {d : Deletion} {p : Preview}

theorem finishDeletion_walk (hw : P ph w) (hdel : Deleting a d)
    (htomb : w.hasTombstone d.app a.operation = true) : Walks G C D (finishDeletion a d p) w := by
  refine h.look rfl hw fun published _ => ?_
  have hdone : ∀ body : Body, body.unregisters d.app = true →
      Walks G C D (finishJson a 200 body) w := by
    intro body hbody
    refine h.record_walk fun o ho => h.succeed ph w 200 body o ho (by decide) (fun app heq => ?_) hw
    rw [hdel.route] at heq
    cases heq
    exact ⟨rfl, hbody, htomb⟩
  refine wp_part (hdone _ (by simp [Body.unregisters])) (fun response w hd => ?_) fun _ _ hd => hd
  refine wp_part (P := fun _ => D) ?_ (fun _ w hd => hd) fun _ _ hd => hd
  refine wp_if (fun _ => ?_) fun _ => hd
  exact wp_attempt_bind (h.finalize d.app w hdel.route hd) fun _ _ hd => hd

theorem resumeDeletion_walk (hw : P ph w) (hdel : Deleting a d) :
    Walks G C D (resumeDeletion a d p) w := by
  refine h.look rfl hw fun readable _ => ?_
  split
  · exact h.interrupted hw
  next metadata hread =>
    refine wp_if (fun _ => h.interrupted hw) fun _ => ?_
    refine h.look rfl hw fun drained _ => ?_
    refine wp_if (fun _ => ?_) fun _ => h.interrupted hw
    exact h.finishDeletion_walk hw hdel (hasTombstone_of_read hread)

end Delete

end Ends

namespace Walk

attribute [local simp] refusal

variable {a : Attempt} {binds : List BindIdentity} {G : Host → (e : Call) → Choice e → Prop}
  {C : Host → Prop} {P : Phase → Host → Prop} {D : Host → Prop} {M : Nat → Host → Prop}
  (h : Walk a binds G C P D M) {w : Host} {ph : Phase}

include h

variable {e : Call} {status : Nat} {body : Body} {code slug : String} {draft : Draft}
  {expected : Option Uuid} {input : DraftInput}

theorem refuse_walk (hw : P ph w)
    (hstatus : ∀ app, a.route = .app app → 400 ≤ status) (hm : M status w) :
    Walks G C D (record a status body (some code)) w :=
  h.record_walk fun c hc => h.refuse ph w status body code c hc hstatus hm hw

theorem finishError_walk (hw : P ph w) (hstatus : 400 ≤ status)
    (hm : M status w) : Walks G C D (finishError a code status) w :=
  h.refuse_walk hw (fun _ _ => hstatus) hm

theorem refused_walk {k : Choice e} (hw : P .fresh w)
    (hquiet : (Host.act w e k).2 = w) (hc : G w e k) (hstatus : 400 ≤ status)
    (hr : refusal binds a w e (Host.act w e k).1 = some status) :
    Walks G C D (finishError a code status) w :=
  h.finishError_walk hw hstatus (hquiet ▸ h.early w e k status hc hw hr)

/-! ## Creating an app -/

theorem recoverCreate_walk (hw : P ph w) (happ : ∀ app, a.route ≠ .app app)
    (hm : error = .appConflict → ∀ s, M s w) : Walks G C D (recoverCreate a error) w := by
  unfold recoverCreate
  split
  · refine h.look rfl hw fun readable _ => ?_
    split
    · exact h.interrupted hw
    next existing _ =>
      refine wp_if (fun _ => ?_) fun _ => ?_
      · exact h.finishError_walk hw (by decide) (hm rfl 409)
      · exact h.finishCreated_walk hw happ
  · refine h.look rfl hw fun readable _ => ?_
    split
    · exact h.interrupted hw
    next existing _ =>
      refine wp_if (fun _ => ?_) fun _ => h.interrupted hw
      refine h.look rfl hw fun o _ => ?_
      split
      · exact h.finishCreated_walk hw happ
      · exact h.interrupted hw

theorem createNew_walk (hw : P .fresh w) (hm : ∀ s, M s w) (hroute : a.route = .apps) :
    Walks G C D (createNew a slug) w := by
  have happ app : a.route ≠ .app app := by simp [hroute]
  refine h.look rfl hw fun valid _ => ?_
  split
  · exact h.interrupted hw
  next slugs _ =>
    refine wp_if (fun _ => h.finishError_walk hw (by decide) (hm 409)) fun _ => ?_
    refine h.look rfl hw fun free _ => ?_
    refine wp_if (fun _ => ?_) fun _ => h.finishError_walk hw (by decide) (hm 409)
    refine h.ask ⟨rfl, .inl hroute⟩ hw fun c _ hw' => ?_
    split
    · exact h.finishCreated_walk hw' happ
    next error herror =>
      refine h.recoverCreate_walk hw' happ fun hconflict => ?_
      rw [hconflict] at herror
      rw [(createApp_conflict herror).1]
      exact hm

theorem create_walk (hw : P .fresh w) (hreq : a.query.request = .create slug) :
    Walks G C D (create a slug) w := by
  have hroute : a.route = .apps := by rw [Attempt.route, hreq]; rfl
  have hm s : M s w := h.fresh (by rw [hreq]; rfl) w s hw
  refine h.look rfl hw fun readable _ => ?_
  split
  · refine wp_if (fun _ => ?_) fun _ => h.createNew_walk hw hm hroute
    exact h.finishCreated_walk hw fun app heq => by rw [hroute] at heq; cases heq
  · exact h.createNew_walk hw hm hroute

theorem createPresetNew_walk (hw : P .fresh w) (hm : ∀ s, M s w)
    (hroute : a.route = .fromPreset) : Walks G C D (createPresetNew a slug draft) w := by
  have happ app : a.route ≠ .app app := by simp [hroute]
  refine h.look rfl hw fun valid hc => ?_
  split
  next error hread => exact h.escape _ w _ valid hc hw (by simp [escapes, hread, hroute])
  next slugs _ =>
    refine wp_if (fun _ => h.finishError_walk hw (by decide) (hm 409)) fun _ => ?_
    refine h.look rfl hw fun free hc => ?_
    refine wp_if (fun _ => ?_) fun hbusy => ?_
    · refine h.ask ⟨rfl, .inr hroute⟩ hw fun c _ hw' => ?_
      split
      · exact h.finishCreated_walk hw' happ
      next herror =>
        obtain ⟨hsame, hlive⟩ := createApp_conflict herror
        rw [hsame]
        refine h.look rfl hw fun readable hc => ?_
        split
        next error hread =>
          -- The app is there, so its metadata could not be read.
          cases readMetadata_error hread hlive
          exact h.escape _ w _ readable hc hw (by simp [escapes, hread, hroute, hlive])
        next existing _ =>
          refine wp_if (fun _ => ?_) fun _ => ?_
          · exact h.finishError_walk hw (by decide) (hm _)
          · exact h.finishCreated_walk hw happ
      · exact h.interrupted hw'
    · exact h.escape _ w _ free hc hw (by simpa [escapes, hroute] using hbusy)

theorem createFromPreset_walk {preset : String} (hw : P .fresh w)
    (hreq : a.query.request = .createFromPreset slug preset) :
    Walks G C D (createFromPreset a slug preset) w := by
  have hroute : a.route = .fromPreset := by rw [Attempt.route, hreq]; rfl
  have hm s : M s w := h.fresh (by rw [hreq]; rfl) w s hw
  refine h.look rfl hw fun rendered _ => ?_
  split
  · exact h.finishError_walk hw (by decide) (hm 422)
  next draft _ =>
    refine h.look rfl hw fun readable _ => ?_
    split
    · refine wp_if (fun _ => ?_) fun _ => h.createPresetNew_walk hw hm hroute
      exact h.finishCreated_walk hw fun app heq => by rw [hroute] at heq; cases heq
    · exact h.createPresetNew_walk hw hm hroute

/-! ## Updating a draft -/

theorem recoverDraft_walk (hw : P ph w) (happ : ∀ app, a.route ≠ .app app)
    (hm : error = .revisionStale ∨ error = .configRevisionConflict → ∀ s, M s w) :
    Walks G C D (recoverDraft a app error) w := by
  unfold recoverDraft
  split
  · exact h.finishError_walk hw (by decide) (hm (.inl rfl) 409)
  · refine h.look rfl hw fun readable _ => ?_
    split
    · exact h.interrupted hw
    next existing _ =>
      refine wp_if (fun _ => ?_) fun _ => h.finishDraft_walk hw happ
      exact h.finishError_walk hw (by decide) (hm (.inr rfl) 409)
  · refine h.look rfl hw fun readable _ => ?_
    split
    · exact h.interrupted hw
    next existing _ =>
      refine wp_if (fun _ => ?_) fun _ => h.interrupted hw
      refine h.look rfl hw fun o _ => ?_
      split
      · exact h.finishDraft_walk hw happ
      · exact h.interrupted hw

theorem saveDraft_walk (hw : P .fresh w) (hm : ∀ s, M s w)
    (hroute : a.route = .draft app) : Walks G C D (saveDraft a app expected draft) w := by
  have happ app : a.route ≠ .app app := by simp [hroute]
  refine h.look rfl hw fun valid hc => ?_
  refine wp_if (fun _ => ?_) fun hbad => ?_
  · refine h.look rfl hw fun planned _ => ?_
    split
    · exact h.refuse_walk hw (fun app heq => absurd heq (happ app)) (hm _)
    · refine h.ask ⟨rfl, hroute⟩ hw fun c _ hw' => ?_
      split
      · exact h.finishDraft_walk hw' happ
      next error herror =>
        refine h.recoverDraft_walk hw' happ fun hrefused => ?_
        rw [updateDraft_refused herror hrefused]
        exact hm
  · exact h.escape _ w _ valid hc hw (by simpa [escapes] using hbad)

theorem normalizeAndSave_walk (hw : P .fresh w) (hm : ∀ s, M s w) (hroute : a.route = .draft app) :
    Walks G C D (normalizeAndSave a app expected input) w := by
  refine h.look rfl hw fun normalized _ => ?_
  split
  · refine h.refuse_walk hw (fun app heq => ?_) (hm _)
    rw [hroute] at heq
    cases heq
  · exact h.saveDraft_walk hw hm hroute

theorem saveNewDraft_walk (hw : P .fresh w) (hm : ∀ s, M s w) (hroute : a.route = .draft app) :
    Walks G C D (saveNewDraft a app expected input m) w := by
  refine h.look rfl hw fun link _ => ?_
  split
  · exact h.interrupted hw
  · exact h.finishError_walk hw (by decide) (hm _)
  · refine wp_if (fun _ => h.finishError_walk hw (by decide) (hm 409)) fun _ => ?_
    split
    · exact h.normalizeAndSave_walk hw hm hroute
    next revision =>
      refine h.look rfl hw fun loaded _ => ?_
      split
      · exact h.interrupted hw
      · exact h.normalizeAndSave_walk hw hm hroute

theorem updateDraft_walk (hw : P .fresh w)
    (hreq : a.query.request = .updateDraft app expected input) :
    Walks G C D (updateDraft a app expected input) w := by
  have hroute : a.route = .draft app := by rw [Attempt.route, hreq]; rfl
  have happ app : a.route ≠ .app app := by simp [hroute]
  have hm s : M s w := h.fresh (by rw [hreq]; rfl) w s hw
  refine h.look rfl hw fun free _ => ?_
  refine wp_if (fun _ => ?_) fun _ => h.finishError_walk hw (by decide) (hm 409)
  refine h.look rfl hw fun readable _ => ?_
  split
  · exact h.finishError_walk hw (by decide) (hm 404)
  · exact h.interrupted hw
  next current hread =>
    refine wp_if (fun _ => h.finishError_walk hw (by decide) (hm 422)) fun _ => ?_
    refine wp_if (fun hmark => ?_) fun _ => h.saveNewDraft_walk hw hm hroute
    exact h.replayDraft_walk hw happ (readMetadata_ok hread) hmark

/-! ## Running an app -/

section Lifecycle

variable {app : Uuid} {action : LifecycleAction} {c : LifecycleContext}

/-- The handler has the app and the action of the request. -/
structure Runs (a : Attempt) (c : LifecycleContext) : Prop where
  request : a.query.request = .lifecycle c.app c.action

variable {act : Handler Response} {desired : DesiredState} {compose : ComposeAction}

omit h in
theorem Runs.not_app (hruns : Runs a c) (app : Uuid) : a.route ≠ .app app := by
  rw [Attempt.route, hruns.request]
  nofun

/-- A check refuses an operation whose desired state is stored. -/
theorem refused_late {k : Choice e} (hw : P .stored w) (hruns : Runs a c) (hc : G w e k)
    (hlate : e.Late) (hr : refusal binds a w e (Host.act w e k).1 = some status) :
    Walks G C D (finishError a code status) w :=
  h.refuse_walk hw (fun app heq => absurd heq (hruns.not_app app))
    (h.late c.app c.action hruns.request w e k status hc hlate hw hr w)

theorem withinDeadline_walk (hw : P .stored w) (hruns : Runs a c) (hact : Walks G C D act w) :
    Walks G C D (withinDeadline a act) w := by
  refine h.look rfl hw fun passed hc => ?_
  cases passed with
  | true => exact h.refused_late hw hruns hc trivial rfl
  | false => exact hact

theorem unlessBindChanged_walk {identities : List BindIdentity} (hw : P .stored w)
    (hruns : Runs a c) (hact : Walks G C D act w) :
    Walks G C D (unlessBindChanged a identities act) w := by
  refine h.look rfl hw fun same hc => ?_
  cases same with
  | true => exact hact
  | false => exact h.refused_late hw hruns hc trivial rfl

theorem finishLifecycle_walk (hw : P ph w) (hruns : Runs a c) :
    Walks G C D (finishLifecycle a c desired) w := by
  refine h.look rfl hw fun warning _ => ?_
  exact h.finishJson_walk hw (by decide) hruns.not_app

theorem noteObserved_walk {found : Option ContainerRecord} (hw : P ph w) :
    appWorld.wp G C (noteObserved a c found) (fun r w => (∃ noted, r = .ok noted) ∧ P ph w) w := by
  unfold noteObserved
  split
  next container _ =>
    refine wp_call (k := Prog.done) fun o hc => ?_
    have hw' := h.step ph w (.markEffectObserved a.route a.key container.id) o hc ⟨rfl, rfl⟩ hw
    exact ⟨h.crashOpen _ _ hw', ⟨_, rfl⟩, hw'⟩
  · exact ⟨⟨_, rfl⟩, hw⟩

theorem afterEffect_walk {effect : Except Deploy.ComposeError Unit} (hw : P ph w)
    (hruns : Runs a c) :
    Walks G C D (afterEffect a c compose desired effect) w := by
  unfold afterEffect
  split
  · split
    · exact h.interrupted hw
    · refine h.look rfl hw fun found _ => ?_
      refine wp_part (h.noteObserved_walk hw) (fun _ w hw => ?_) fun err w hw => ?_
      · exact h.interrupted hw.2
      · obtain ⟨⟨_, hok⟩, -⟩ := hw
        cases hok
  · refine h.look rfl hw fun found _ => ?_
    refine wp_part (h.noteObserved_walk hw) (fun noted w hw => ?_) fun err w hw => ?_
    · obtain ⟨-, hw⟩ := hw
      refine wp_if (fun _ => ?_) fun _ => h.interrupted hw
      split
      · exact h.interrupted hw
      · refine h.ask ⟨rfl, rfl⟩ hw fun o _ hw => ?_
        split
        · exact h.interrupted hw
        · exact h.finishLifecycle_walk hw hruns
    · obtain ⟨⟨_, hok⟩, -⟩ := hw
      cases hok

theorem composeRun_walk {k : Except Deploy.ComposeError Unit → Handler Response}
    (hw : P .stored w) (hruns : Runs a c)
      (hk : ∀ effect w, P .stored w → Walks G C D (k effect) w) :
    Walks G C D (Prog.ask (Call.composeRun compose c.app a.operation) >>= k) w := by
  refine h.ask ⟨rfl, .inr ⟨c.action, ?_⟩⟩ hw fun outcome _ hw => hk _ _ hw
  rw [Attempt.route, hruns.request]
  rfl

omit h in
theorem refusal_loadVerified_error {which : VerifiedRelease}
    (hwhich : which ≠ .activeForStop ∨ code ≠ "APP_DEPLOY_REQUIRED" ∨
      ∀ app, a.query.request ≠ .lifecycle app .stop) :
    refusal binds a w (.loadVerified which app) (.error code) = some (mutationStatus code) := by
  cases hreq : a.query.request with
  | lifecycle app' action =>
    cases action with
    | stop =>
      rcases hwhich with hwhich | hcode | hother
      · simp [hreq, hwhich]
      · simp [hreq, hcode]
      · exact absurd hreq (hother app')
    | _ => simp [hreq]
  | _ => simp [hreq]

omit h in
theorem refusal_loadVerified_ok (which : VerifiedRelease) {v : Verified}
    (hreq : a.query.request = .lifecycle app .restart) (hne : v.bindIdentities ≠ binds) :
    ∃ s < 500, refusal binds a w (.loadVerified which app) (.ok v) = some s := by
  by_cases hpending : v.pendingReleaseId.isSome = true
  · exact ⟨409, by decide, by simp [hreq, hpending]⟩
  · exact ⟨422, by decide, by simp [hreq, hpending, hne, mutationStatus]⟩

variable {final : Verified}

omit h in
theorem postStopBindError_status {code' : String} (hcode : postStopBindError code = some code') :
    mutationStatus code' = mutationStatus code := by
  unfold postStopBindError at hcode
  split at hcode
  · rw [Option.some.inj hcode]
  · split at hcode
    next hbind =>
      cases Option.some.inj hcode
      simp only [List.contains_eq_mem, List.mem_cons, List.not_mem_nil, or_false,
        decide_eq_true_eq] at hbind
      rcases hbind with rfl | rfl | rfl | rfl | rfl <;> decide
    · cases hcode

theorem restartAgain_walk (hw : P .stored w) (hruns : Runs a c)
    (hrestart : c.action = .restart) (hfinal : (∀ s w, M s w) ∨ final.bindIdentities = binds) :
    Walks G C D (restartAgain a c final desired) w := by
  refine h.look rfl hw fun stopped _ => ?_
  refine wp_if (fun _ => ?_) fun _ => h.interrupted hw
  refine h.unlessBindChanged_walk hw hruns ?_
  refine h.look rfl hw fun loaded hc => ?_
  cases loaded with
  | error code =>
    rw [show (w.act (.loadVerified .active c.app) (.error code)).1 = .error code from rfl]
    dsimp only
    split
    next code' hcode =>
      rw [postStopBindError_status hcode]
      exact h.refused_late hw hruns hc trivial
        (refusal_loadVerified_error (.inl fun heq => by cases heq))
    · exact h.interrupted hw
  | ok fresh =>
    refine wp_if (fun _ => h.interrupted hw) fun _ => ?_
    refine wp_if (fun hne => ?_) fun _ => ?_
    · refine h.finishError_walk hw mutationStatus_ge ?_
      rcases hfinal with hm | hfinal
      · exact hm _ w
      · obtain ⟨s, hs, hr⟩ := refusal_loadVerified_ok (w := w) .active
          (hrestart ▸ hruns.request) (hfinal ▸ hne)
        exact h.uniform w s _ hs
          (h.late c.app c.action hruns.request w _ _ s hc trivial hw hr w)
    · refine h.unlessBindChanged_walk hw hruns ?_
      refine h.look rfl hw fun planned hc => ?_
      cases planned with
      | error code => exact h.refused_late hw hruns hc trivial rfl
      | ok _ => exact h.composeRun_walk hw hruns fun _ _ hw => h.afterEffect_walk hw hruns

theorem runEffect_walk (hw : P .stored w) (hruns : Runs a c)
    (hfinal : c.action = .restart → (∀ s w, M s w) ∨ final.bindIdentities = binds) :
    Walks G C D (runEffect a c compose final desired) w := by
  refine h.withinDeadline_walk hw hruns ?_
  split
  next hrestart =>
    refine h.composeRun_walk hw hruns fun effect w hw => ?_
    cases effect with
    | ok _ => exact h.restartAgain_walk hw hruns hrestart (hfinal hrestart)
    | error error => exact h.afterEffect_walk hw hruns
  · exact h.composeRun_walk hw hruns fun _ _ hw => h.afterEffect_walk hw hruns

theorem resources_walk {containerId : Option String} (hw : P .fresh w)
    (happ : ∀ app, a.route ≠ .app app)
    (hc : G w (.validateResources app containerId action) (.error (code, status))) :
    Walks G C D (finishError a code status) w :=
  h.refuse_walk hw (fun app heq => absurd heq (happ app))
    (h.early w (.validateResources app containerId action) (.error (code, status)) status hc hw rfl)

omit h in
/-- Whether the container is as an attempt left it does not depend on the plan. -/
theorem resumedCompose_isSome (action : LifecycleAction) (marker : EffectMarker)
    (observed : Option ContainerRecord) (planned : Option ComposeAction) :
    (resumedCompose action marker observed planned).isSome =
      (resumedCompose action marker observed none).isSome := by
  unfold resumedCompose
  repeat' split
  all_goals rfl

section

variable (hw : P .stored w) (hruns : Runs a c)

include hw hruns

theorem lastLook_walk : Walks G C D (lastLook a c compose desired) w := by
  refine h.look rfl hw fun loaded hc => ?_
  cases loaded with
  | error code => exact h.interrupted hw
  | ok final =>
    have hfinal : c.action = .restart → (∀ s w, M s w) ∨ final.bindIdentities = binds := by
      intro hrestart
      by_cases hsame : final.bindIdentities = binds
      · exact .inr hsame
      · obtain ⟨s, hs, hr⟩ := refusal_loadVerified_ok (w := w) (reverified c)
          (hrestart ▸ hruns.request) hsame
        exact .inl fun s' w' => h.uniform w' s s' hs
          (h.late c.app c.action hruns.request w _ _ s hc trivial hw hr w')
    refine wp_if (fun _ => h.interrupted hw) fun _ => ?_
    refine h.look rfl hw fun same _ => ?_
    refine wp_if (fun _ => ?_) fun _ => h.interrupted hw
    refine h.look rfl hw fun valid _ => ?_
    split
    · exact h.interrupted hw
    · have htail : Walks G C D (do
          if ← Prog.ask (Call.revalidateBinds final.bindIdentities) then
            runEffect a c compose final desired
          else interruptInternal a) w := by
        refine h.look rfl hw fun same _ => ?_
        cases same with
        | false => exact h.interrupted hw
        | true => exact h.runEffect_walk hw hruns hfinal
      split
      · exact htail
      · refine h.look rfl hw fun planned _ => ?_
        cases planned with
        | error code => exact h.interrupted hw
        | ok _ => exact htail

theorem markAndRun_walk : Walks G C D (markAndRun a c compose desired) w := by
  refine h.look rfl hw fun same hc => ?_
  cases same with
  | false => exact h.refused_late hw hruns hc trivial rfl
  | true =>
    refine wp_if (fun _ => ?_) fun hno => absurd rfl hno
    split
    · exact h.lastLook_walk hw hruns
    · refine h.ask ⟨rfl, rfl⟩ hw fun o _ hw => ?_
      split
      · exact h.interrupted hw
      · exact h.lastLook_walk hw hruns

theorem prepareNetwork_walk : Walks G C D (prepareNetwork a c compose desired) w := by
  refine wp_if (fun _ => ?_) fun _ => h.markAndRun_walk hw hruns
  refine h.look rfl hw fun ensured hc => ?_
  cases ensured with
  | error code => exact h.refused_late hw hruns hc trivial rfl
  | ok _ => exact h.markAndRun_walk hw hruns

theorem applyEffect_walk {compose : Option ComposeAction} :
    Walks G C D (applyEffect a c compose desired) w := by
  refine h.look rfl hw fun warning _ => ?_
  split
  · exact h.finishLifecycle_walk hw hruns
  next compose =>
    refine h.look rfl hw fun unready hc => ?_
    cases unready with
    | some code => exact h.refused_late hw hruns hc trivial rfl
    | none =>
      refine h.look rfl hw fun free hc => ?_
      cases free with
      | false => exact h.refused_late hw hruns hc trivial rfl
      | true =>
        refine h.look rfl hw fun valid hc => ?_
        rcases valid with ⟨code, status⟩ | _
        · exact h.refused_late hw hruns hc trivial rfl
        · exact h.prepareNetwork_walk hw hruns

end

section

variable (hw : P .fresh w) (hruns : Runs a c)

include hw hruns

theorem storeDesired_walk {compose : Option ComposeAction} :
    Walks G C D (storeDesired a c compose desired) w := by
  refine h.ask ⟨rfl, c.action, hruns.request⟩ hw fun o _ hw => ?_
  split
  next metadata hstored =>
    obtain ⟨m, hm, hmark⟩ := marked_of_stored hstored
    exact h.applyEffect_walk (h.stored _ _ _ _ m hruns.request hm hmark hw) hruns
  · refine h.look rfl hw fun readable _ => ?_
    split
    · exact h.interrupted hw
    next existing hread =>
      refine wp_if (fun hsame => ?_) fun _ => h.interrupted hw
      have hw := h.stored _ _ _ _ existing hruns.request (readMetadata_ok hread) hsame.1 hw
      refine h.look rfl hw fun o _ => ?_
      split
      · exact h.applyEffect_walk hw hruns
      · exact h.interrupted hw

theorem resumeFromMarker_walk {compose : Option ComposeAction} :
    Walks G C D (resumeFromMarker a c compose desired) w := by
  unfold resumeFromMarker
  split
  next marker _ _ =>
    refine h.look rfl hw fun observed hc => ?_
    split
    · exact h.storeDesired_walk hw hruns
    next hnone =>
      refine h.refused_walk hw rfl hc (by decide) ?_
      have hnone : resumedCompose c.action marker observed compose = none := hnone
      have hsome := resumedCompose_isSome c.action marker observed compose
      rw [hnone] at hsome
      show refusal binds a w (.observeAgainst marker c.app c.allowPending) observed = some 409
      simp [hruns.request, ← hsome]
  · exact h.storeDesired_walk hw hruns

end

theorem readStored_walk {verified : Verified} {container : Option ContainerRecord}
    {compose : Option ComposeAction} {observed : String}
    (hw : P .fresh w) (hreq : a.query.request = .lifecycle app action) :
    Walks G C D (readStored a app action verified container compose observed) w := by
  refine h.look rfl hw fun readable hc => ?_
  split
  next error hread =>
    refine h.finishError_walk hw (by decide) (h.early w _ readable 500 hc hw ?_)
    simp [hread, Except.isOk, Except.toBool]
  next previous _ =>
    refine h.look rfl hw fun readable _ => ?_
    split
    · exact h.interrupted hw
    next marker _ => exact h.resumeFromMarker_walk hw ⟨hreq⟩

omit h in
theorem not_app_of_lifecycle (hreq : a.query.request = .lifecycle app action) (app' : Uuid) :
    a.route ≠ .app app' := by
  rw [Attempt.route, hreq]
  nofun

variable {verified : Verified}

theorem observeContainer_walk (hw : P .fresh w) (hreq : a.query.request = .lifecycle app action) :
    Walks G C D (observeContainer a app action verified) w := by
  refine h.look rfl hw fun current hcurrent => ?_
  refine h.look rfl hw fun valid hc => ?_
  rcases valid with ⟨code, status⟩ | _
  · exact h.resources_walk hw (not_app_of_lifecycle hreq) hc
  · show appWorld.wp G C (match lifecyclePlan action current with
      | .refuse code status => finishError a code status
      | .proceed compose observed => _) _ w
    split
    next code status hplan =>
      refine h.refuse_walk hw (fun app heq => absurd heq (not_app_of_lifecycle hreq app))
        (h.early w _ current status hcurrent hw ?_)
      show refusal binds a w (.mutationContainer app _) current = some status
      simp [hreq, hplan]
    · exact h.readStored_walk hw hreq

theorem checkPaths_walk (hw : P .fresh w) (hreq : a.query.request = .lifecycle app action) :
    Walks G C D (checkPaths a app action verified) w := by
  refine wp_if (fun _ => h.observeContainer_walk hw hreq) fun _ => ?_
  refine h.look rfl hw fun paths hc => ?_
  cases paths with
  | error code => exact h.refused_walk hw rfl hc mutationStatus_ge rfl
  | ok _ =>
    refine h.look rfl hw fun planned hc => ?_
    cases planned with
    | error code => exact h.refused_walk hw rfl hc mutationStatus_ge rfl
    | ok _ => exact h.observeContainer_walk hw hreq

theorem withVerified_walk {which : VerifiedRelease} (hw : P .fresh w)
    (hreq : a.query.request = .lifecycle app action)
    (hc : G w (.loadVerified which app) (.ok verified)) :
    Walks G C D (withVerified a app action verified) w := by
  refine wp_if (fun hpending => ?_) fun _ => h.checkPaths_walk hw hreq
  refine h.refused_walk hw rfl hc (by decide) ?_
  show refusal binds a w (.loadVerified which app) (.ok verified) = some 409
  simp [hreq, hpending]

theorem lifecycle_walk (hw : P .fresh w)
    (hreq : a.query.request = .lifecycle app action) : Walks G C D (lifecycle a app action) w := by
  refine h.look rfl hw fun free hc => ?_
  cases free with
  | false => exact h.refused_walk hw rfl hc (by decide) rfl
  | true =>
    refine h.look rfl hw fun loaded hc => ?_
    cases loaded with
    | ok verified => exact h.withVerified_walk hw hreq hc
    | error code =>
      refine wp_if (fun _ => ?_) fun hother => ?_
      · refine h.look rfl hw fun loaded hc => ?_
        cases loaded with
        | ok verified => exact h.withVerified_walk hw hreq hc
        | error code =>
          exact h.refused_walk hw rfl hc mutationStatus_ge (refusal_loadVerified_error (.inl nofun))
      · refine h.refused_walk hw rfl hc mutationStatus_ge (refusal_loadVerified_error (.inr ?_))
        by_cases hcode : code = "APP_DEPLOY_REQUIRED"
        · refine .inr fun app' heq => hother ⟨hcode, ?_⟩
          rw [hreq] at heq
          cases heq
          rfl
        · exact .inl hcode

end Lifecycle

/-! ## Deleting an app -/

section Delete

variable {d : Deletion} {p : Preview}

section

variable (hw : P ph w) (hdel : Deleting a d)

include hw hdel

theorem moveToTrash_walk : Walks G C D (moveToTrash a d p) w := by
  refine h.ask ⟨rfl, hdel.route⟩ hw fun c _ hw => ?_
  split
  next hmoved => exact h.finishDeletion_walk hw hdel (hasTombstone_of_tombstone hmoved)
  · exact h.look rfl hw fun _ _ => h.interrupted hw

theorem lastSnapshot_walk : Walks G C D (lastSnapshot a d p) w := by
  refine h.look rfl hw fun drained _ => ?_
  refine wp_if (fun _ => ?_) fun _ => h.interrupted hw
  refine h.look rfl hw fun found _ => ?_
  split
  · exact h.interrupted hw
  next snapshot _ =>
    refine wp_if (fun _ => h.interrupted hw) fun _ => ?_
    refine h.look rfl hw fun same _ => ?_
    refine wp_if (fun _ => ?_) fun _ => h.interrupted hw
    exact h.moveToTrash_walk hw hdel

theorem composeRemove_walk : Walks G C D (composeRemove a d p) w := by
  refine h.ask ⟨rfl, .inl hdel.route⟩ hw fun c _ hw => ?_
  split
  · exact h.interrupted hw
  · refine h.ask ⟨rfl, .inl hdel.route⟩ hw fun c _ hw => ?_
    split
    · exact h.interrupted hw
    · refine h.look rfl hw fun gone _ => ?_
      refine wp_if (fun _ => ?_) fun _ => h.interrupted hw
      refine h.ask ⟨rfl, rfl⟩ hw fun o _ hw => ?_
      split
      · exact h.interrupted hw
      · exact h.lastSnapshot_walk hw hdel

end

variable {active : Verified} {snapshot : DeletionSnapshot}

section

variable (hw : P .fresh w) (hdel : Deleting a d)

include hw hdel

theorem removeVerified_walk : Walks G C D (removeVerified a d p snapshot active) w := by
  refine h.look rfl hw fun loaded _ => ?_
  split
  · exact h.interrupted hw
  next final _ =>
    refine wp_if (fun _ => h.interrupted hw) fun _ => ?_
    refine h.look rfl hw fun paths _ => ?_
    split
    · exact h.interrupted hw
    · refine h.look rfl hw fun same _ => ?_
      refine wp_if (fun _ => ?_) fun _ => h.interrupted hw
      refine wp_if (fun _ => h.interrupted hw) fun _ => ?_
      refine h.look rfl hw fun same hc => ?_
      cases same with
      | false =>
        refine h.finishError_walk hw (by decide) (h.uniform w 422 409 (by decide) ?_)
        exact h.early w (.revalidateBinds final.bindIdentities) false 422 hc hw rfl
      | true =>
        refine h.look rfl hw fun passed hc => ?_
        cases passed with
        | true => exact h.refused_walk hw rfl hc (by decide) rfl
        | false => exact h.composeRemove_walk hw hdel

theorem markRemoval_walk : Walks G C D (markRemoval a d p snapshot active) w := by
  refine h.look rfl hw fun readable _ => ?_
  split
  · exact h.interrupted hw
  · exact h.removeVerified_walk hw hdel
  · refine h.ask ⟨rfl, rfl⟩ hw fun o _ hw => ?_
    split
    · exact h.interrupted hw
    · exact h.removeVerified_walk hw hdel

theorem removeContainer_walk : Walks G C D (removeContainer a d p snapshot) w := by
  refine h.look rfl hw fun loaded hc => ?_
  cases loaded with
  | error code =>
    exact h.refused_walk hw rfl hc mutationStatus_ge (refusal_loadVerified_error (.inl nofun))
  | ok active =>
    refine h.look rfl hw fun free hc => ?_
    cases free with
    | false => exact h.refused_walk hw rfl hc (by decide) rfl
    | true =>
      refine h.look rfl hw fun unready hc => ?_
      cases unready with
      | some code => exact h.refused_walk hw rfl hc (by decide) rfl
      | none =>
        refine h.look rfl hw fun same hc => ?_
        cases same with
        | false => exact h.refused_walk hw rfl hc (by decide) rfl
        | true => exact h.markRemoval_walk hw hdel

theorem applyDeletion_walk : Walks G C D (applyDeletion a d p snapshot) w :=
  wp_if (fun _ => h.removeContainer_walk hw hdel) fun _ => h.lastSnapshot_walk hw hdel

theorem consumePreview_walk : Walks G C D (consumePreview a d p snapshot) w := by
  refine wp_if (fun _ => h.applyDeletion_walk hw hdel) fun _ => ?_
  refine h.ask trivial hw fun o hc hw' => ?_
  split
  · exact h.interrupted hw'
  next updated hok =>
    refine wp_if (fun hne => ?_) fun _ => h.applyDeletion_walk hw' hdel
    refine h.finishError_walk hw' (by decide) (h.early w _ o 409 hc hw ?_)
    simp [hok, hne]

theorem compareSnapshot_walk
    (hp : w.previewOf d.token d.app = some p) : Walks G C D (compareSnapshot a d p) w := by
  refine h.look rfl hw fun found hc => ?_
  cases found with
  | error code =>
    refine h.refused_walk hw rfl hc (by decide) ?_
    show refusal binds a w (.deletionSnapshot d.app d.removeContainer) (.error code) = some 409
    simp [hdel.request, hp]
  | ok snapshot =>
    refine wp_if (fun _ => h.consumePreview_walk hw hdel) fun hdiffers => ?_
    refine h.refused_walk hw rfl hc (by decide) ?_
    simp only [refusal, hdel.request, hp, Option.bind_some]
    exact if_neg hdiffers

theorem locateApp_walk (hp : w.previewOf d.token d.app = some p) :
    Walks G C D (locateApp a d p) w := by
  refine h.look rfl hw fun visible hc => ?_
  refine wp_if (fun hthere => ?_) fun hgone => ?_
  · refine wp_if (fun hused => ?_) fun _ => ?_
    · refine h.refused_walk hw rfl hc (by decide) ?_
      simp only [refusal, hdel.request, hp, Option.bind_some]
      rw [if_pos hthere, if_pos hused]
    · refine h.look rfl hw fun now hc => ?_
      refine wp_if (fun hexpired => ?_) fun _ => h.compareSnapshot_walk hw hdel hp
      refine h.refused_walk hw rfl hc (by decide) ?_
      simp only [refusal, hdel.request, hp, Option.bind_some]
      exact if_pos hexpired
  · refine wp_if (fun hresumed => ?_) fun hnew => ?_
    · refine wp_if (fun _ => h.resumeDeletion_walk hw hdel) fun hunused => ?_
      refine h.refused_walk hw rfl hc (by decide) ?_
      simp only [refusal, hdel.request, hp, Option.bind_some]
      rw [if_neg hgone, if_pos hresumed, if_neg hunused]
    · refine h.refused_walk hw rfl hc (by decide) ?_
      simp only [refusal, hdel.request, hp, Option.bind_some]
      rw [if_neg hgone, if_neg hnew]

theorem deleteApp_walk : Walks G C D (deleteApp a d) w := by
  refine h.look rfl hw fun free hc => ?_
  cases free with
  | false => exact h.refused_walk hw rfl hc (by decide) rfl
  | true =>
    refine h.look rfl hw fun cleanup hc => ?_
    cases cleanup with
    | error error => exact h.interrupted hw
    | ok count =>
      refine wp_if (fun hbusy => ?_) fun _ => ?_
      · refine h.refused_walk hw rfl hc (by decide) ?_
        show refusal binds a w (.cleanupInProgress d.app) (.ok count) = some 409
        simp [hbusy]
      · refine h.look rfl hw fun readable hc => ?_
        split
        · exact h.interrupted hw
        next hnone =>
          refine h.refused_walk hw rfl hc (by decide) ?_
          simp [hdel.request, hnone]
        next p hsome =>
          refine wp_if (fun _ => ?_) fun hother => ?_
          · refine h.locateApp_walk hw hdel ?_
            cases readable with
            | false => cases hsome
            | true => exact Except.ok.inj hsome
          · refine h.refused_walk hw rfl hc (by decide) ?_
            simp [hdel.request, hsome, hother]

end

end Delete

/-- The argument for every handler. -/
theorem handle_walk (hw : P .fresh w) : Walks G C D (handle a) w := by
  unfold handle
  split
  next slug hreq => exact h.create_walk hw hreq
  next slug preset hreq => exact h.createFromPreset_walk hw hreq
  next app expected draft hreq => exact h.updateDraft_walk hw hreq
  next app action hreq => exact h.lifecycle_walk hw hreq
  next app token slug expected remove hreq => exact h.deleteApp_walk hw ⟨hreq⟩

end Walk

end SoloDock.Apps
