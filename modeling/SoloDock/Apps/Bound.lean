import SoloDock.Apps.Previews

/-!
# A deletion does what its preview showed

Every effect of a deletion must be covered by a preview (`Covers`): its token is the
request's, it was shown to the same session, the facts hashed last are those it showed,
and, for a container or a directory, this operation consumed the token before it expired.
A container may be missing from the facts if this operation removed it itself; no other
container is removed, and no token is consumed twice. `Authorised` says so of the whole
account.

The row of a consumed token does not say who consumed it, and the marker of a removal is
not read when the container is found missing. So the account is in order only as long as
a resumed deletion that finds its token consumed and its container gone has consumed and
removed them itself (`ResumesOwn`), and nobody else interferes while it runs
(`Undisturbed`).
-/

namespace SoloDock.Apps

open Lib Mutation Lib.World

/-! ## What a deletion may rest on -/

namespace Effect

def consumes (token : String) : Effect → Bool
  | consumed t _ => t == token
  | _ => false

/-- The token of this preview is consumed, in time. -/
def spends (p : Preview) : Effect → Bool
  | consumed t now => t == p.token && decide (now < p.expiresAt)
  | _ => false

end Effect

def SpentBy (deeds : List Deed) (op : Uuid) (p : Preview) : Prop :=
  ∃ y ∈ deeds, y.caller.operation = op ∧ y.effect.spends p = true

def ConsumedBy (deeds : List Deed) (op : Uuid) (token : String) : Prop :=
  ∃ y ∈ deeds, y.caller.operation = op ∧ y.effect.consumes token = true

def RemovedBy (deeds : List Deed) (op app : Uuid) (ids : List String) : Prop :=
  ∀ id ∈ ids, ∃ y ∈ deeds, y.caller.operation = op ∧ y.effect = .removed app id

/-- What was hashed is what the preview showed, but for containers that this operation has
removed. -/
def Shown (p : Preview) (before : List Deed) (op : Uuid) : Option DeletionFacts → Prop
  | none => False
  | some f =>
    f = p.facts ∨
      ({ f with containerIds := p.facts.containerIds } = p.facts ∧ f.containerIds = []
        ∧ RemovedBy before op p.app p.facts.containerIds)

def Effect.Within (p : Preview) (before : List Deed) (op : Uuid) : Effect → Prop
  | consumed token now =>
    token = p.token ∧ now < p.expiresAt ∧ ∀ y ∈ before, y.effect.consumes token = false
  | removed app id =>
    app = p.app ∧ p.removeContainer = true ∧ id ∈ p.facts.containerIds ∧ SpentBy before op p
  | tombstoned app => app = p.app ∧ SpentBy before op p

/-- The preview covers the deed, after those before it. -/
def Covers (p : Preview) (before : List Deed) (x : Deed) : Prop :=
  p.token = x.caller.deletion.token ∧ p.session = x.caller.session
    ∧ Shown p before x.caller.operation x.hashed
    ∧ x.effect.Within p before x.caller.operation

def Authorised (previews : List Preview) : List Deed → Prop
  | [] => True
  | x :: before => (∃ p ∈ previews, Covers p before x) ∧ Authorised previews before

/-! ## The conditions -/

/-- Between the last look at the containers and the end of their removal. -/
def Call.removing : Call → Bool
  | .revalidateBinds _ => true
  | .deadlinePassed => true
  | .composeRun _ _ _ => true
  | _ => false

/-- From the check that the token has not expired to its consumption. -/
def Call.spending : Call → Bool
  | .deletionSnapshot _ _ => true
  | .consumePreview _ => true
  | _ => false

/-- While a deletion that removes the container is served nobody else removes it, nor
makes another one between the last look at it and its removal; and a token found unexpired
is consumed before it expires. -/
def Undisturbed (w : Site) : (e : Asked) → Pick e → Prop
  | .call (some caller) e, (m, _) =>
    (caller.deletion.removeContainer = true →
      ∀ id ∈ w.containersOf caller.deletion.app, id ∈ (w.after m).containersOf caller.deletion.app)
    ∧ (e.removing = true →
      (w.after m).containersOf caller.deletion.app = w.containersOf caller.deletion.app)
    ∧ (e.spending = true → ∀ p ∈ w.apps.previews, p.token = caller.deletion.token →
      p.consumed = false → w.clock < p.expiresAt → (w.after m).clock < p.expiresAt)
  | _, _ => True

/-- A resumed deletion that finds its token consumed has consumed it, and has removed the
container if there was one to remove and the app has none. -/
def ResumesOwn (w : Site) : Job → Prop
  | .delete a d =>
    a.resumed = true → w.apps.isLive d.app = true →
      ∀ p ∈ w.apps.previews, p.token = d.token → p.consumed = true →
        ConsumedBy w.deeds a.operation d.token
        ∧ (d.removeContainer = true → w.containersOf d.app = [] →
          RemovedBy w.deeds a.operation d.app p.facts.containerIds)
  | _ => True

instance (deeds : List Deed) (op : Uuid) (p : Preview) : Decidable (SpentBy deeds op p) :=
  inferInstanceAs (Decidable (∃ y ∈ deeds, _))

instance (deeds : List Deed) (op : Uuid) (token : String) :
    Decidable (ConsumedBy deeds op token) :=
  inferInstanceAs (Decidable (∃ y ∈ deeds, _))

instance (deeds : List Deed) (op app : Uuid) (ids : List String) :
    Decidable (RemovedBy deeds op app ids) :=
  inferInstanceAs (Decidable (∀ id ∈ ids, ∃ y ∈ deeds, _))

instance (p : Preview) (before : List Deed) (op : Uuid) :
    ∀ f, Decidable (Shown p before op f)
  | none => .isFalse id
  | some _ => inferInstanceAs (Decidable (_ ∨ _))

instance (p : Preview) (before : List Deed) (op : Uuid) :
    ∀ effect : Effect, Decidable (effect.Within p before op)
  | .consumed _ now => inferInstanceAs (Decidable (_ ∧ (now : Int) < p.expiresAt ∧ _))
  | .removed _ _ => inferInstanceAs (Decidable (_ ∧ _))
  | .tombstoned _ => inferInstanceAs (Decidable (_ ∧ _))

instance (p : Preview) (before : List Deed) (x : Deed) : Decidable (Covers p before x) :=
  inferInstanceAs (Decidable (_ ∧ _))

instance decidableAuthorised (previews : List Preview) :
    ∀ deeds, Decidable (Authorised previews deeds)
  | [] => .isTrue trivial
  | _ :: before =>
    have := decidableAuthorised previews before
    inferInstanceAs (Decidable (_ ∧ _))

instance (w : Site) :
    ∀ (e : Asked) (c : deletionService.world.Choice e), Decidable (Undisturbed w e c)
  | .call (some _) _, (_, _) => inferInstanceAs (Decidable (_ ∧ _ ∧ (_ → ∀ p ∈ w.apps.previews,
      _ → _ → (w.clock : Int) < p.expiresAt → ((w.after _).clock : Int) < p.expiresAt)))
  | .call none _, _ => .isTrue trivial
  | .randomToken, _ => .isTrue trivial
  | .insertPreview _, _ => .isTrue trivial

instance (w : Site) : ∀ job, Decidable (ResumesOwn w job)
  | .delete _ _ => inferInstanceAs (Decidable (_ → _ → ∀ p ∈ w.apps.previews, _ → _ → _ ∧ _))
  | .preview _ _ _ => .isTrue trivial
  | .replayed _ _ => .isTrue trivial
  | .reconcile => .isTrue trivial

/-! ## The account grows -/

section Account

variable {p : Preview} {before later : List Deed} {op app : Uuid} {x : Deed}

theorem SpentBy.mono (h : SpentBy before op p) (hsub : before ⊆ later) : SpentBy later op p := by
  obtain ⟨y, hy, hop, hspends⟩ := h
  exact ⟨y, hsub hy, hop, hspends⟩

theorem Authorised.keep {rows rows' : List Preview} {deeds : List Deed} (h : Authorised rows deeds)
    (hrows : ∀ p ∈ rows, ∃ b, { p with consumed := b } ∈ rows') : Authorised rows' deeds := by
  induction deeds with
  | nil => trivial
  | cons x before ih =>
    obtain ⟨⟨p, hp, hcovers⟩, hbefore⟩ := h
    obtain ⟨b, hb⟩ := hrows p hp
    exact ⟨⟨_, hb, hcovers⟩, ih hbefore⟩

theorem Authorised.row_of_consumes {rows : List Preview} {deeds : List Deed}
    (h : Authorised rows deeds) {y : Deed} (hy : y ∈ deeds) {token : String}
    (hconsumes : y.effect.consumes token = true) :
    ∃ p ∈ rows, p.token = token ∧ y.effect.spends p = true := by
  induction deeds with
  | nil => cases hy
  | cons x before ih =>
    obtain ⟨⟨p, hp, hcovers⟩, hbefore⟩ := h
    rcases List.mem_cons.mp hy with rfl | hy
    · refine ⟨p, hp, ?_⟩
      have hwithin := hcovers.2.2.2
      cases heffect : y.effect with
      | consumed t now =>
        rw [heffect] at hwithin hconsumes
        refine ⟨hwithin.1.symm.trans (eq_of_beq hconsumes), ?_⟩
        exact Bool.and_eq_true_iff.mpr ⟨beq_iff_eq.mpr hwithin.1, decide_eq_true hwithin.2.1⟩
      | removed | tombstoned =>
        rw [heffect] at hconsumes
        cases hconsumes
    · exact ih hbefore hy

end Account

/-- The invariant: the account is in order, and the table says which tokens it has
consumed. -/
structure Bound (w : Site) : Prop where
  tokens : w.apps.previews.Pairwise fun p q => p.token ≠ q.token
  used : ∀ y ∈ w.deeds, ∀ p ∈ w.apps.previews, y.effect.consumes p.token = true → p.consumed = true
  authorised : Authorised w.apps.previews w.deeds

theorem Bound.spent {w : Site} (h : Bound w) {p : Preview} (hp : p ∈ w.apps.previews) {op : Uuid}
    (hconsumed : ConsumedBy w.deeds op p.token) : SpentBy w.deeds op p := by
  obtain ⟨y, hy, hop, hconsumes⟩ := hconsumed
  obtain ⟨q, hq, htoken, hspends⟩ := h.authorised.row_of_consumes hy hconsumes
  obtain rfl : q = p := eq_of_key_eq h.tokens hq hp htoken
  exact ⟨y, hy, hop, hspends⟩

theorem Bound.congr {w w' : Site} (h : Bound w) (hpreviews : w'.apps.previews = w.apps.previews)
    (hdeeds : w'.deeds = w.deeds) : Bound w' := by
  refine ⟨?_, ?_, ?_⟩
  · rw [hpreviews]
    exact h.tokens
  · rw [hpreviews, hdeeds]
    exact h.used
  · rw [hpreviews, hdeeds]
    exact h.authorised

/-! ## What a call leaves alone -/

/-- The calls without an effect of their own. -/
def Call.Ordinary : Call → Prop
  | .consumePreview _ => False
  | .tombstone _ _ => False
  | .composeRun _ _ _ => False
  | .deletionSnapshot _ _ => False
  | _ => True

variable {e : Call}

theorem act_previews (w : Host) (he : ∀ token, e ≠ .consumePreview token)
    (c : Choice e) : (Host.act w e c).2.previews = w.previews := by
  have hmark : ∀ route key f o, (w.mark route key f o).2.previews = w.previews := by
    intro route key f o
    unfold Host.mark
    split
    · rfl
    · dsimp only
      split <;> rfl
  cases e with
  | consumePreview token => exact absurd rfl (he token)
  | claim q =>
    show (w.claim q c.1 c.2).2.previews = w.previews
    unfold Host.claim
    dsimp only
    rcases Ledger.answered_cases c.1 with heq | ⟨result, ledger, -, heq⟩ <;> rw [heq]
  | markEffectStarted | markEffectObserved | markEffectCompleted => exact hmark ..
  | finish | markInterrupted | interruptPending | markFinalized | composeRun =>
    dsimp only [Host.act]
    split <;> rfl
  | insertReceipt app op =>
    dsimp only [Host.act]
    split
    · unfold Host.insertReceipt
      split <;> rfl
    · rfl
  | createApp slug op draft =>
    show (w.createApp slug op draft c.1 c.2).2.previews = w.previews
    unfold Host.createApp
    dsimp only
    split
    · rfl
    · split <;> rfl
  | updateDraft app expected op draft =>
    show (w.updateDraft app expected op draft c.1 c.2.1 c.2.2).2.previews = w.previews
    unfold Host.updateDraft
    split
    · rfl
    · split
      · rfl
      · split
        · rfl
        · dsimp only
          split <;> rfl
  | setDesiredState app desired op =>
    show (w.setDesiredState app desired op c.1 c.2).2.previews = w.previews
    unfold Host.setDesiredState
    split
    · rfl
    · dsimp only
      split <;> rfl
  | tombstone app op =>
    show (w.tombstone app op c).2.previews = w.previews
    unfold Host.tombstone
    split
    · rfl
    · rfl
    · split
      · rfl
      · split <;> rfl
  | removeTombstone app op =>
    show (w.removeTombstone app op c).2.previews = w.previews
    unfold Host.removeTombstone
    split <;> rfl
  | _ => rfl

namespace Call.Ordinary

variable (he : e.Ordinary)

include he

theorem clears (c : Choice e) : Site.clears e c = none := by
  cases e with
  | composeRun => exact he.elim
  | _ => rfl

theorem effects (w : Site) (apps : Host) (c : Choice e) : w.effects apps e c = [] := by
  cases e with
  | consumePreview | tombstone | composeRun => exact he.elim
  | _ => rfl

theorem hashes (w : Site) (answer : Answer e) : w.hashes e answer = w.hashed := by
  cases e with
  | deletionSnapshot => exact he.elim
  | _ => rfl

theorem previews (w : Host) (c : Choice e) : (Host.act w e c).2.previews = w.previews := by
  refine act_previews w ?_ c
  intro token heq
  rw [heq] at he
  exact he

end Call.Ordinary

/-- The table and the account are the same, and no container that is to be removed has
gone. -/
structure Calm (caller : Caller) (w w' : Site) : Prop where
  previews : w'.apps.previews = w.apps.previews
  deeds : w'.deeds = w.deeds
  grows : caller.deletion.removeContainer = true →
    ∀ id ∈ w.containersOf caller.deletion.app, id ∈ w'.containersOf caller.deletion.app

/-- Nor were other facts hashed. -/
structure Quiet (caller : Caller) (w w' : Site) : Prop extends Calm caller w w' where
  hashed : w'.hashed = w.hashed

theorem account_nil (w : Site) (caller : Option Caller) : w.account caller [] = [] := by
  cases caller <;> rfl

theorem ordinary_call (he : e.Ordinary) (w : Site) (caller : Option Caller)
    (c : Choice e) : (w.call caller e c).2 = { w with apps := (Host.act w.apps e c).2 } := by
  unfold Site.call
  dsimp only
  rw [he.clears, he.effects, he.hashes, account_nil]
  rfl

theorem ordinary_act (he : e.Ordinary) {caller : Caller} {w : Site}
    {c : Pick (.call (some caller) e)} :
    (Site.act w (.call (some caller) e) c).2 =
      { w.after c.1 with apps := (Host.act (w.after c.1).apps e c.2).2 } :=
  ordinary_call he (w.after c.1) (some caller) c.2

theorem ordinary_quiet {caller : Caller} {w : Site} (he : e.Ordinary)
    {c : Pick (.call (some caller) e)} (hc : Undisturbed w (.call (some caller) e) c) :
    Quiet caller w (Site.act w (.call (some caller) e) c).2 := by
  rw [ordinary_act he]
  exact ⟨⟨he.previews _ _, rfl, hc.1⟩, rfl⟩

end SoloDock.Apps
