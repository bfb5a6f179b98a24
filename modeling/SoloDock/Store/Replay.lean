import SoloDock.Store.Commit
import SoloDock.Deploy.Machine

/-!
# Replaying the active commit

An attempt at a commit is cut after any number of its calls, and each call was served or
failed, with or without its effect. Whatever attempts came before, the directory is
`Between` the two ends of the commit: it shows the old release with the candidate
pending, or the candidate with the pending link there or gone. That is what the guards of
the next attempt accept, so an attempt whose calls are served ends the commit.

The specifications carry an invariant that holds after every call and a fact about the
result. A commit strengthens its invariant twice on the way: `Between` until the active
link is switched, `Switched` until the pending link is gone, then `Committed`.
-/

namespace SoloDock.Store

open Lib Lib.World Lib.Prog

variable {d : AppDirectory} {e : Call}

/-! ## Specifications -/

section Spec

variable {α β : Type} {reliable : Prop} {I J : AppDirectory → Prop}

/-- The picks a run may meet: all of them, or where the file system is reliable only served
calls. -/
def Under (reliable : Prop) : AppDirectory → (e : Call) → fileSystem.Choice e → Prop :=
  fun _ _ (pick : Pick) => reliable → pick = .served

/-- The invariant holds at the end; with a result so does `P`, and only an unreliable file
system makes the run fail. -/
def Ending (reliable : Prop) (I : AppDirectory → Prop) (P : α → AppDirectory → Prop) :
    Except StoreError α → AppDirectory → Prop
  | .ok a, d => I d ∧ P a d
  | .error _, d => I d ∧ ¬reliable

/-- The program keeps the invariant at every call and ends as `Ending` says. -/
def Spec (reliable : Prop) (I : AppDirectory → Prop) (p : StoreProg α)
    (P : α → AppDirectory → Prop) (d : AppDirectory) : Prop :=
  fileSystem.wp (Under reliable) I p (Ending reliable I P) d

variable {P : α → AppDirectory → Prop} {P' : β → AppDirectory → Prop}

theorem spec_pure {a : α} (hI : I d) (hP : P a d) : Spec reliable I (pure a) P d :=
  ⟨hI, hP⟩

theorem spec_stop {error : StoreError} (hI : I d) (h : ¬reliable) :
    Spec reliable I (Prog.stop error : StoreProg α) P d :=
  ⟨hI, h⟩

variable {p : StoreProg α} {v : Given e}

theorem spec_mono {Q : α → AppDirectory → Prop} (h : Spec reliable I p P d)
    (hIJ : ∀ d, I d → J d) (hPQ : ∀ a d, I d → P a d → Q a d) : Spec reliable J p Q d := by
  refine wp_weaken h (fun _ _ _ hG => hG) hIJ fun r d' hr => ?_
  cases r with
  | ok a => exact ⟨hIJ d' hr.1, hPQ a d' hr.1 hr.2⟩
  | error error => exact ⟨hIJ d' hr.1, hr.2⟩

theorem spec_bind {k : α → StoreProg β} (hp : Spec reliable I p P d)
    (hk : ∀ a d, I d → P a d → Spec reliable I (k a) P' d) : Spec reliable I (p >>= k) P' d :=
  wp_part hp (fun a d' h => hk a d' h.1 h.2) fun _ _ h => h

theorem spec_attempt {k : Except StoreError α → StoreProg β} (hp : Spec reliable I p P d)
    (hok : ∀ a d, I d → P a d → Spec reliable I (k (.ok a)) P' d)
    (herror : ∀ error d, I d → ¬reliable → Spec reliable I (k (.error error)) P' d) :
    Spec reliable I (p.attempt >>= k) P' d := by
  refine wp_attempt_bind hp fun r d' hr => ?_
  cases r with
  | ok a => exact hok a d' hr.1 hr.2
  | error error => exact herror error d' hr.1 hr.2

variable {P : Given e → AppDirectory → Prop}

theorem spec_perform (hI : I d)
    (heffect : I (d.effect e)) (hgiven : d.given e = .ok v) (hP : P v (d.effect e)) :
    Spec reliable I (perform e) P d := by
  refine wp_call fun pick hpick => ?_
  cases (pick : Pick) with
  | served =>
    refine ⟨heffect, ?_⟩
    show fileSystem.wp _ _ (Prog.accept (d.given e)) _ (d.effect e)
    rw [hgiven]
    exact ⟨heffect, hP⟩
  | failed applied error =>
    have hleft : I (if applied then d.effect e else d) := by
      cases applied
      · exact hI
      · exact heffect
    refine ⟨hleft, hleft, fun hreliable => ?_⟩
    exact absurd (hpick hreliable) nofun

theorem spec_ignore {k : Answer e → StoreProg β} (hI : I d)
    (heffect : I (d.effect e)) (hk : ∀ answer d, I d → Spec reliable I (k answer) P' d) :
    Spec reliable I (Prog.ask e >>= k) P' d := by
  refine wp_call fun pick _ => ?_
  have hleft : I (fileSystem.act d e pick).2 := by
    cases (pick : Pick) with
    | served => exact heffect
    | failed applied error =>
      cases applied
      · exact hI
      · exact heffect
  exact ⟨hleft, hk _ _ hleft⟩

theorem spec_look {k : Given e → StoreProg β} (hI : I d)
    (hquiet : d.effect e = d) (hgiven : d.given e = .ok v)
    (hk : Spec reliable I (k v) P' d) : Spec reliable I (perform e >>= k) P' d := by
  have hcall : Spec reliable I (perform e) (fun a d' => a = v ∧ d' = d) d :=
    spec_perform hI (by rw [hquiet]; exact hI) hgiven ⟨rfl, hquiet⟩
  refine spec_bind hcall fun a d' _ h => ?_
  rw [h.1, h.2]
  exact hk

theorem spec_last (hI : I d) (hquiet : d.effect e = d) (hgiven : d.given e = .ok v) (hP : P v d) :
    Spec reliable I (perform e) P d :=
  spec_perform hI (by rw [hquiet]; exact hI) hgiven (by rw [hquiet]; exact hP)

end Spec

/-! ## The three stretches of a commit -/

/-- The app has a draft, so its metadata can be read whatever the desired state. -/
def AppDirectory.Configured (d : AppDirectory) : Prop := d.metadata.draftRevision.isSome

namespace Commit

variable (c : Commit)

/-- The active link names the candidate; the pending link names it too or is gone. -/
structure Switched (d : AppDirectory) : Prop where
  active : d.active = some c.candidate
  pending : d.pending = some c.candidate ∨ d.pending = none
  configured : d.Configured

/-- Not switched yet, or `Switched`. -/
def Between (d : AppDirectory) : Prop :=
  (d.active = c.expectedActive ∧ d.pending = some c.candidate ∧ d.Configured) ∨ c.Switched d

/-- The links are as the commit leaves them. -/
structure Committed (d : AppDirectory) : Prop where
  active : d.active = some c.candidate
  pending : d.pending = none
  configured : d.Configured

variable {c}

theorem Committed.switched (h : c.Committed d) : c.Switched d :=
  ⟨h.active, .inr h.pending, h.configured⟩

theorem Switched.between (h : c.Switched d) : c.Between d := .inr h

theorem Switched.committed (h : c.Switched d) (hpending : d.pending ≠ some c.candidate) :
    c.Committed d :=
  ⟨h.active, h.pending.resolve_left hpending, h.configured⟩

theorem Between.switched (h : c.Between d) (hactive : d.active = some c.candidate) :
    c.Switched d := by
  rcases h with ⟨_, hpending, hconfigured⟩ | h
  · exact ⟨hactive, .inl hpending, hconfigured⟩
  · exact h

theorem Between.temporaries (h : c.Between d) (names : List Uuid) :
    c.Between { d with temporaries := names } := by
  rcases h with h | h
  · exact .inl h
  · exact .inr ⟨h.active, h.pending, h.configured⟩

theorem Between.linked (h : c.Between d) (names : List Uuid) :
    c.Switched { d with active := some c.candidate, temporaries := names } := by
  rcases h with ⟨_, hpending, hconfigured⟩ | h
  · exact ⟨rfl, .inl hpending, hconfigured⟩
  · exact ⟨rfl, h.pending, h.configured⟩

end Commit

theorem given_readMetadata (h : d.Configured) : d.given .readMetadata = .ok d.metadata := by
  have haccepted : d.metadata.accepted = true := by
    rw [AppMetadata.accepted, show d.metadata.draftRevision.isSome = true from h]
    rfl
  show (if d.metadata.accepted then Except.ok d.metadata else _) = _
  rw [if_pos haccepted]

variable {c : Commit}

section Programs

variable {reliable : Prop} {draws : Draws}

theorem switchReleaseLink_spec (h : c.Between d) (temporary : Uuid) :
    Spec reliable c.Between (switchReleaseLink temporary .active c.candidate)
      (fun _ d => d.active = some c.candidate) d := by
  refine spec_look h rfl rfl (spec_look h rfl rfl (spec_look h rfl rfl ?_))
  have hwrite : Spec reliable c.Between (do
      perform (.symlink c.candidate temporary)
      perform (.renameLink temporary .active c.candidate)
      perform (.syncDirectory .app) :
        StoreProg Unit) (fun _ d => d.active = some c.candidate) d := by
    have hsymlink : Spec reliable c.Between (perform (.symlink c.candidate temporary))
        (fun _ _ => True) d := spec_perform h (h.temporaries _) rfl trivial
    refine spec_bind hsymlink fun _ d1 h1 _ => ?_
    have hrename : Spec reliable c.Between (perform (.renameLink temporary .active c.candidate))
        (fun _ d => d.active = some c.candidate) d1 :=
      spec_perform h1 (h1.linked _).between rfl rfl
    exact spec_bind hrename fun _ d2 h2 hactive => spec_last h2 rfl rfl hactive
  refine spec_attempt hwrite (fun _ d1 h1 hactive => spec_pure h1 hactive)
    fun error d1 h1 hfailed => ?_
  -- The temporary link is removed on a best effort, and the error stands.
  exact spec_ignore h1 (h1.temporaries _) fun _ d2 h2 => spec_stop h2 hfailed

theorem removeReleaseLink_spec (h : c.Switched d) :
    Spec reliable c.Switched (removeReleaseLink .pending) (fun _ d => d.pending = none) d := by
  have hgone : c.Switched (d.effect (.removeLink .pending)) := ⟨h.active, .inr rfl, h.configured⟩
  have hremove : Spec reliable c.Switched (perform (.removeLink .pending))
      (fun _ d => d.pending = none) d := spec_perform h hgone rfl rfl
  refine spec_bind hremove fun removed d1 h1 hnone => ?_
  cases (removed : Bool) with
  | true => exact spec_last h1 rfl rfl hnone
  | false => exact spec_pure h1 hnone

theorem removeReleaseLinkIf_spec (h : c.Switched d) :
    Spec reliable c.Switched (removeReleaseLinkIf .pending c.candidate)
      (fun _ => c.Committed) d := by
  refine spec_look h rfl rfl ?_
  split
  next hpending =>
    refine spec_attempt (removeReleaseLink_spec h)
      (fun _ d1 h1 hnone => spec_pure h1 ⟨h1.active, hnone, h1.configured⟩)
      fun error d1 h1 hfailed => ?_
    refine spec_look h1 rfl rfl ?_
    split
    · exact spec_stop h1 hfailed
    next hpending1 => exact spec_last h1 rfl rfl (h1.committed hpending1)
  next hpending => exact spec_pure h (h.committed hpending)

/-- The pending link as `commit_active` removes it: an error is looked at once more. -/
theorem unpend_spec (h : c.Switched d) : Spec reliable c.Switched (do
      match ← Prog.attempt (removeReleaseLinkIf .pending c.candidate) with
      | .ok _ => pure ()
      | .error error =>
        let visible : Option Uuid ← perform (.readReleaseLink .pending)
        if visible = some c.candidate then Prog.stop error else perform (.syncDirectory .app) :
        StoreProg Unit) (fun _ => c.Committed) d := by
  refine spec_attempt (removeReleaseLinkIf_spec h)
    (fun _ d1 h1 hcommitted => spec_pure h1 hcommitted) fun error d1 h1 hfailed => ?_
  refine spec_look h1 rfl rfl ?_
  split
  · exact spec_stop h1 hfailed
  next hpending => exact spec_last h1 rfl rfl (h1.committed hpending)

theorem commitActive_spec (h : c.Between d) (hactive : d.active = c.expectedActive)
    (hpending : d.pending = some c.candidate) :
    Spec reliable c.Between (commitActive draws c.expectedActive c.candidate)
      (fun _ => c.Committed) d := by
  refine spec_look h rfl rfl (wp_ensure_bind (fun _ => ?_) fun hne => ?_)
  · refine spec_look h rfl rfl (wp_ensure_bind (fun _ => ?_) fun hne => ?_)
    · refine spec_look h rfl rfl ?_
      refine spec_attempt (switchReleaseLink_spec h draws.link) (fun _ d1 h1 hswitched => ?_)
        fun error d1 h1 hfailed => ?_
      · exact spec_mono (unpend_spec (h1.switched hswitched)) (fun _ => Commit.Switched.between)
          fun _ _ _ hcommitted => hcommitted
      · refine spec_look h1 rfl rfl ?_
        split
        next hswitched =>
          refine spec_look h1 rfl rfl ?_
          exact spec_mono (unpend_spec (h1.switched hswitched)) (fun _ => Commit.Switched.between)
            fun _ _ _ hcommitted => hcommitted
        · exact spec_stop h1 hfailed
    · exact absurd (show (AppDirectory.link d .pending) = some c.candidate from hpending)
        (of_decide_eq_false hne)
  · exact absurd (show (AppDirectory.link d .active) = c.expectedActive from hactive)
      (of_decide_eq_false hne)

theorem repairAppDurability_spec {I : AppDirectory → Prop} (h : I d) {P : AppDirectory → Prop}
    (hP : P d) : Spec reliable I repairAppDurability (fun _ => P) d := by
  refine spec_look h rfl rfl (spec_look h rfl rfl ?_)
  cases hrevisions : d.configRevisions with
  | true =>
    exact spec_look h rfl rfl (spec_look h rfl rfl (spec_look h rfl rfl (spec_last h rfl rfl hP)))
  | false => exact spec_look h rfl rfl (spec_last h rfl rfl hP)

theorem finalizeLinks_spec (h : c.Between d) :
    Spec reliable c.Between (finalizeLinks draws c) (fun _ => c.Committed) d := by
  refine spec_look h rfl rfl ?_
  split
  next hactive =>
    refine spec_look h rfl rfl ?_
    have hremove : Spec reliable c.Between (removeReleaseLinkIf .pending c.candidate)
        (fun _ => c.Committed) d :=
      spec_mono (removeReleaseLinkIf_spec (h.switched hactive)) (fun _ => Commit.Switched.between)
        fun _ _ _ hcommitted => hcommitted
    exact spec_bind hremove fun _ d1 h1 hcommitted => repairAppDurability_spec h1 hcommitted
  next hactive =>
    -- Not switched: the links are as the first attempt found them.
    rcases h with ⟨hold, hpending, hconfigured⟩ | h
    · show Spec reliable c.Between (if d.active = c.expectedActive then _ else _) _ d
      rw [if_pos hold]
      exact commitActive_spec (.inl ⟨hold, hpending, hconfigured⟩) hold hpending
    · exact absurd h.active hactive

/-! ## The metadata -/

theorem Commit.Committed.recorded (h : c.Committed d) (m : AppMetadata)
    (hdraft : m.draftRevision = d.metadata.draftRevision) (names : List Uuid) :
    c.Committed { d with metadata := m, temporaries := names } := by
  refine ⟨h.active, h.pending, ?_⟩
  show m.draftRevision.isSome = true
  rw [hdraft]
  exact h.configured

theorem Commit.Committed.temporaries (h : c.Committed d) (names : List Uuid) :
    c.Committed { d with temporaries := names } :=
  h.recorded d.metadata rfl names

theorem writeMetadata_spec (h : c.Committed d) (temporary : Uuid) (m : AppMetadata)
    (hdraft : m.draftRevision = d.metadata.draftRevision) :
    Spec reliable c.Committed (writeMetadata temporary m) (fun _ d => d.metadata = m) d := by
  have hwrite : Spec reliable c.Committed (do
      perform (.createFile temporary)
      perform (.renameMetadata temporary m)
      perform (.syncDirectory .app) : StoreProg Unit) (fun _ d => d.metadata = m) d := by
    have hcreate : Spec reliable c.Committed (perform (.createFile temporary))
        (fun _ d' => d'.metadata = d.metadata) d := spec_perform h (h.temporaries _) rfl rfl
    refine spec_bind hcreate fun _ d1 h1 hsame => ?_
    have hrename : Spec reliable c.Committed (perform (.renameMetadata temporary m))
        (fun _ d => d.metadata = m) d1 :=
      spec_perform h1 (h1.recorded m (by rw [hsame]; exact hdraft) _) rfl rfl
    exact spec_bind hrename fun _ d2 h2 hwritten => spec_last h2 rfl rfl hwritten
  refine spec_attempt hwrite (fun _ d1 h1 hwritten => spec_pure h1 hwritten)
    fun error d1 h1 hfailed => ?_
  exact spec_ignore h1 (h1.temporaries _) fun _ d2 h2 => spec_stop h2 hfailed

theorem finalizeMetadata_spec (h : c.Committed d) :
    Spec reliable c.Committed (finalizeMetadata draws c) (fun _ d => c.Recorded d.metadata) d := by
  refine spec_look h rfl (given_readMetadata h.configured) ?_
  split
  next hrecorded => exact spec_pure h hrecorded
  · have hset : Spec reliable c.Committed (setDesiredState draws c.desiredState c.operationId)
        (fun _ d => c.Recorded d.metadata) d := by
      refine spec_look h rfl (given_readMetadata h.configured) ?_
      refine spec_mono (writeMetadata_spec h _ _ rfl) (fun _ hI => hI) fun _ d1 _ hwritten => ?_
      rw [hwritten]
      exact ⟨rfl, rfl⟩
    refine spec_attempt hset (fun _ d1 h1 hrecorded => spec_pure h1 hrecorded)
      fun error d1 h1 hfailed => ?_
    refine spec_look h1 rfl (given_readMetadata h1.configured) ?_
    split
    next hrecorded => exact spec_pure h1 hrecorded
    · exact spec_stop h1 hfailed

/-- The commit is complete. -/
def Commit.Done (c : Commit) (d : AppDirectory) : Prop :=
  d.active = some c.candidate ∧ d.pending = none ∧ c.Recorded d.metadata

/-- From anywhere between the ends of the commit, an attempt stays between them and ends it
if it returns a result; on a reliable file system it does. -/
theorem finalizeActive_spec (h : c.Between d) :
    Spec reliable c.Between (finalizeActive draws c) (fun _ => c.Done) d := by
  refine spec_bind (finalizeLinks_spec h) fun _ d1 _ hcommitted => ?_
  have hrest : Spec reliable c.Committed (do
      finalizeMetadata draws c
      repairAppDurability : StoreProg Unit) (fun _ => c.Done) d1 :=
    spec_bind (finalizeMetadata_spec hcommitted) fun _ d2 h2 hrecorded =>
      repairAppDurability_spec h2 ⟨h2.active, h2.pending, hrecorded⟩
  exact spec_mono hrest (fun _ hI => hI.switched.between) fun _ _ _ hdone => hdone

end Programs

/-! ## What an attempt never does -/

/-- The calls of a commit move the active link only onto the candidate, and set no pending
link. -/
def Call.Forward (c : Commit) : Call → Prop
  | .renameLink _ .active release => release = c.candidate
  | .renameLink _ .pending _ => False
  | .removeLink .active => False
  | _ => True

/-- A call that goes forward leaves the candidate active. -/
theorem forward_act (he : e.Forward c)
    (pick : fileSystem.Choice e) (h : d.active = some c.candidate) :
    (fileSystem.act d e pick).2.active = some c.candidate := by
  have heffect : (d.effect e).active = some c.candidate := by
    cases e with
    | renameLink temporary name release =>
      cases name with
      | active => exact congrArg some he
      | pending => exact he.elim
    | removeLink name =>
      cases name with
      | active => exact he.elim
      | pending => exact h
    | _ => exact h
  cases (pick : Pick) with
  | served => exact heffect
  | failed applied error =>
    cases applied
    · exact h
    · exact heffect

section Only

variable {F : Call → Prop}

theorem perform_only (he : F e) : (perform e).Only F :=
  only_call he fun answer => by cases answer <;> trivial

theorem perform_bind {k : Given e → StoreProg β} (he : F e) (hk : ∀ a, (k a).Only F) :
    (perform e >>= k).Only F :=
  only_bind (perform_only he) hk

theorem attempt_only {p : StoreProg α} {k : Except StoreError α → StoreProg β}
    (hp : p.Only F) (hk : ∀ r, (k r).Only F) : (p.attempt >>= k).Only F :=
  only_bind (only_attempt hp) hk

theorem switchReleaseLink_forward {temporary : Uuid} :
    (switchReleaseLink temporary .active c.candidate).Only (Call.Forward c) := by
  refine perform_bind trivial fun _ => perform_bind trivial
    fun _ => perform_bind trivial fun _ => attempt_only ?_ fun r => ?_
  · exact perform_bind trivial fun _ => perform_bind rfl fun _ => perform_only trivial
  · cases r with
    | ok a => trivial
    | error error => exact only_call trivial fun _ => trivial

theorem removeReleaseLinkIf_forward {expected : Uuid} :
    (removeReleaseLinkIf .pending expected).Only (Call.Forward c) := by
  refine perform_bind trivial fun link => ?_
  split
  · refine attempt_only ?_ fun r => ?_
    · refine perform_bind trivial fun removed => ?_
      split
      · exact perform_only trivial
      · trivial
    · cases r with
      | ok a => trivial
      | error error =>
        refine perform_bind trivial fun visible => ?_
        split
        · trivial
        · exact perform_only trivial
  · trivial

theorem commitActive_forward (draws : Draws) {expected : Option Uuid} :
    (commitActive draws expected c.candidate).Only (Call.Forward c) := by
  refine perform_bind trivial fun active => only_ensure_bind fun _ => perform_bind trivial
      fun pending => only_ensure_bind fun _ =>
        perform_bind trivial fun _ =>
          attempt_only switchReleaseLink_forward fun r => ?_
  have hunpend : (do
      match ← Prog.attempt (removeReleaseLinkIf .pending c.candidate) with
      | .ok _ => pure ()
      | .error error =>
        let visible : Option Uuid ← perform (.readReleaseLink .pending)
        if visible = some c.candidate then Prog.stop error else perform (.syncDirectory .app) :
        StoreProg Unit).Only (Call.Forward c) := by
    refine attempt_only removeReleaseLinkIf_forward fun r => ?_
    cases r with
    | ok a => trivial
    | error error =>
      refine perform_bind trivial fun visible => ?_
      split
      · trivial
      · exact perform_only trivial
  cases r with
  | ok a => exact hunpend
  | error error =>
    refine perform_bind trivial fun visible => ?_
    split
    · exact perform_bind trivial fun _ => hunpend
    · trivial

theorem repairAppDurability_forward : repairAppDurability.Only (Call.Forward c) := by
  refine perform_bind trivial fun _ => perform_bind trivial fun revisions => ?_
  have hlast : (do
      perform (.syncDirectory .app)
      perform (.syncDirectory .apps) : StoreProg Unit).Only (Call.Forward c) :=
    perform_bind trivial fun _ => perform_only trivial
  split
  · exact perform_bind trivial fun _ => perform_bind trivial fun _ => hlast
  · exact hlast

theorem finalizeMetadata_forward (draws : Draws) :
    (finalizeMetadata draws c).Only (Call.Forward c) := by
  refine perform_bind trivial fun metadata => ?_
  split
  · trivial
  · refine attempt_only ?_ fun r => ?_
    · refine perform_bind trivial fun _ => attempt_only ?_ fun r => ?_
      · exact perform_bind trivial fun _ => perform_bind trivial fun _ => perform_only trivial
      · cases r with
        | ok a => trivial
        | error error => exact only_call trivial fun _ => trivial
    · cases r with
      | ok a => trivial
      | error error =>
        refine perform_bind trivial fun visible => ?_
        split
        · trivial
        · trivial

/-- Finalizing does not turn back. -/
theorem finalizeActive_forward (draws : Draws) :
    (finalizeActive draws c).Only (Call.Forward c) := by
  refine only_bind ?_ fun _ => only_bind (finalizeMetadata_forward draws) fun _ =>
    repairAppDurability_forward
  refine perform_bind trivial fun active => ?_
  split
  · exact perform_bind trivial fun _ =>
      only_bind removeReleaseLinkIf_forward fun _ => repairAppDurability_forward
  · split
    · exact commitActive_forward draws
    · trivial

end Only

/-! ## Histories of attempts -/

/-- One attempt: what it draws, what the file system does with its calls, and after how
many of them the process dies; an attempt with no more calls than that comes to its end. -/
structure Attempt where
  draws : Draws
  script : fileSystem.Script
  calls : Nat

namespace Commit

/-- The directory an attempt leaves. -/
def attempt (c : Commit) (d : AppDirectory) (a : Attempt) : AppDirectory :=
  fileSystem.cut a.script 0 a.calls (finalizeActive a.draws c) d

/-- The directory after any number of attempts at the same commit. -/
abbrev attempts (c : Commit) (d : AppDirectory) (as : List Attempt) : AppDirectory :=
  play c.attempt d as

/-- A directory as a deployment commits from: the old release is active and the candidate
pending, or the candidate is active already, and the app has the draft it was released
from. -/
structure Prepared (c : Commit) (d : AppDirectory) : Prop where
  active : d.active = c.expectedActive
  pending : d.pending = some c.candidate ∨
    (c.expectedActive = some c.candidate ∧ d.pending = none)
  configured : d.Configured

theorem Prepared.between (h : c.Prepared d) : c.Between d := by
  rcases h.pending with hpending | ⟨hsame, hpending⟩
  · exact .inl ⟨h.active, hpending, h.configured⟩
  · exact .inr ⟨h.active.trans hsame, .inr hpending, h.configured⟩

theorem attempt_between (a : Attempt) (h : c.Between d) : c.Between (c.attempt d a) := by
  have hspec : Spec False c.Between (finalizeActive a.draws c) (fun _ => c.Done) d :=
    finalizeActive_spec h
  exact wp_cut a.script 0 a.calls h hspec (meetsCut_of_forall _ (fun _ _ _ h => h.elim) _ _ _ _)

/-- Attempts leave the old release or the candidate active. -/
theorem attempts_between (as : List Attempt) (h : c.Between d) : c.Between (c.attempts d as) :=
  Along.invariant (fun _ a _ h => attempt_between a h)
    (along_of_forall (G := fun _ _ => True) (fun _ _ => trivial) d as) h

theorem attempt_forward (a : Attempt) (h : d.active = some c.candidate) :
    (c.attempt d a).active = some c.candidate := by
  have hcut := cut_of_only (I := fun d => d.active = some c.candidate) a.script
    (fun d e pick he hd => forward_act he pick hd) 0 0 a.calls (finalizeActive_forward a.draws)
    (w := d) (by rw [cut_zero]; exact h)
  rw [Nat.zero_add] at hcut
  exact hcut

/-- Once the candidate is active, every attempt leaves it so. -/
theorem attempts_forward (as : List Attempt) (h : d.active = some c.candidate) :
    (c.attempts d as).active = some c.candidate :=
  Along.invariant (I := fun d : AppDirectory => d.active = some c.candidate)
    (fun _ a _ h => attempt_forward a h)
    (along_of_forall (G := fun _ _ => True) (fun _ _ => trivial) d as) h

/-- An attempt that finds neither the old release nor the candidate active only reads. -/
theorem stale_spec (draws : Draws) (hold : d.active ≠ c.expectedActive)
    (hnew : d.active ≠ some c.candidate) :
    fileSystem.wp (Under False) (· = d) (finalizeActive draws c)
      (fun r d' => (∃ error, r = .error error) ∧ d' = d) d := by
  refine wp_call fun pick _ => ?_
  cases (pick : Pick) with
  | served =>
    refine ⟨rfl, ?_⟩
    show fileSystem.wp _ _ ((if d.active = some c.candidate then _
      else if d.active = c.expectedActive then _ else _) >>= _) _ d
    rw [if_neg hnew, if_neg hold]
    exact ⟨⟨_, rfl⟩, rfl⟩
  | failed applied error =>
    have hsame : (if applied then d.effect (.readReleaseLink .active) else d) = d := by
      cases applied <;> rfl
    exact ⟨hsame, ⟨_, rfl⟩, hsame⟩

end Commit

/-- Whatever attempts at a commit came before, each cut after any of its calls and with any
of its calls failed: the active link names the old release or the candidate; once it names
the candidate it does so after every further call and attempt; an attempt that returns a
result has completed the commit, and one whose calls are served returns it. An attempt that
finds neither release active changes nothing at any of its calls and returns an error. -/
theorem active_commit_replayable (c : Commit) (d : AppDirectory) :
    (c.Prepared d → ∀ as : List Attempt,
      ((c.attempts d as).active = c.expectedActive ∨
        (c.attempts d as).active = some c.candidate) ∧
      ((c.attempts d as).active = some c.candidate → ∀ more : List Attempt,
        (c.attempts d (as ++ more)).active = some c.candidate) ∧
      (∀ (a : Attempt) (j : Nat), (c.attempt (c.attempts d as) a).active = some c.candidate →
        (c.attempt (c.attempts d as) { a with calls := a.calls + j }).active =
          some c.candidate) ∧
      (∀ (draws : Draws) (o : fileSystem.Script),
        let run := fileSystem.exec o 0 (finalizeActive draws c) (c.attempts d as)
        (run.1 = .ok () → c.Done run.2) ∧
        (fileSystem.Meets (Under True) o 0 (finalizeActive draws c) (c.attempts d as) →
          run.1 = .ok ()))) ∧
    (d.active ≠ c.expectedActive → d.active ≠ some c.candidate → ∀ a : Attempt,
      c.attempt d a = d ∧
        ∃ error, (fileSystem.exec a.script 0 (finalizeActive a.draws c) d).1 = .error error) := by
  refine ⟨fun hprepared as => ?_, fun hold hnew a => ?_⟩
  · have hbetween : c.Between (c.attempts d as) := Commit.attempts_between as hprepared.between
    refine ⟨?_, fun hactive more => ?_, fun a j hactive => ?_, fun draws o => ⟨?_, ?_⟩⟩
    · rcases hbetween with h | h
      · exact .inl h.1
      · exact .inr h.active
    · show (play c.attempt d (as ++ more)).active = _
      rw [play_append]
      exact Commit.attempts_forward more hactive
    · exact cut_of_only (I := fun d => d.active = some c.candidate) a.script
        (fun d e pick he hd => forward_act he pick hd) 0 a.calls j
        (finalizeActive_forward a.draws) hactive
    · have hspec : Spec False c.Between (finalizeActive draws c) (fun _ => c.Done)
          (c.attempts d as) := finalizeActive_spec hbetween
      have hend := wp_exec o 0 hspec (meets_of_forall _ (fun _ _ _ h => h.elim) _ _ _)
      intro hok
      rw [hok] at hend
      exact hend.2
    · intro hserved
      have hspec : Spec True c.Between (finalizeActive draws c) (fun _ => c.Done)
          (c.attempts d as) := finalizeActive_spec hbetween
      have hend := wp_exec o 0 hspec hserved
      revert hend
      generalize (fileSystem.exec o 0 (finalizeActive draws c) (c.attempts d as)).1 = r
      intro hend
      cases r with
      | ok a => rfl
      | error error => exact absurd trivial hend.2
  · have hstale := Commit.stale_spec a.draws hold hnew
    constructor
    · exact wp_cut (C := (· = d)) a.script 0 a.calls rfl hstale
        (meetsCut_of_forall _ (fun _ _ _ h => h.elim) _ _ _ _)
    · exact (wp_exec a.script 0 hstale (meets_of_forall _ (fun _ _ _ h => h.elim) _ _ _)).1

/-- A deployment that replaces release 1 by release 2, and its directory. -/
def replacement : Commit := ⟨some 1, 2, .running, 9⟩

def beforeReplacement : AppDirectory :=
  ⟨some 1, some 2, ⟨some 5, .stopped, 8, 0⟩, true, []⟩

theorem replacement_replayable :
    replacement.Prepared beforeReplacement ∧
      (∀ as, (replacement.attempts beforeReplacement as).active = some 1 ∨
        (replacement.attempts beforeReplacement as).active = some 2) ∧
      ∀ a, replacement.attempt { beforeReplacement with active := some 3 } a =
        { beforeReplacement with active := some 3 } := by
  have hprepared : replacement.Prepared beforeReplacement := ⟨rfl, .inl rfl, rfl⟩
  refine ⟨hprepared, fun as => ?_, fun a => ?_⟩
  · exact ((active_commit_replayable replacement beforeReplacement).1 hprepared as).1
  · exact ((active_commit_replayable replacement _).2 (by decide) (by decide) a).1

end SoloDock.Store
