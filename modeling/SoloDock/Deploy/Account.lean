import SoloDock.Deploy.Machine
import SoloDock.Lib.Trace

/-!
# What a run has seen

The log of a run tells what the engine knew when it made a call: which containers it listed
since the last Compose action, which container passed the health gate since then, which
releases it loaded. `View` is the part of a state that the results about whole runs read,
and most calls leave it alone (`passive_view`).

`Law` is what every state of a run satisfies. `LinkLaw` says why the last call changed the
pending link: the release it named became active, or the call had a `Reason`. `Meaning` says
what stands behind a terminal status.
-/

namespace SoloDock.Deploy

open Lib Lib.Prog Registry Docker

/-- One call of a deployment run. -/
abbrev Step := Event Call Call.Answer Machine

/-- The calls of a run, the latest first. -/
abbrev Log := List Step

abbrev State := Machine × Log

/-- The world of a deployment run, with the log of its calls. -/
abbrev engineWorld : World Call Call.Answer State := deployWorld.traced

/-! ## Reading the log -/

def Call.isCompose : Call → Bool
  | .compose .. => true
  | _ => false

/-- The containers of the app that a call listed. -/
def listing : Step → Option (List ContainerRecord)
  | ⟨before, .listComposeAppContainers project, (answer : Option (List ContainerRecord))⟩ =>
    if project = projectName before.slug then answer else none
  | _ => none

/-- A verification that passed: what was expected, the policy, and the container as it was
then. -/
structure Gate where
  expected : Expected
  policy : HealthPolicy
  verified : ContainerRecord

def gate : Step → Option Gate
  | ⟨_, .verifyHealth containerId release imageRef identity policy,
      (answer : Except HealthError ContainerRecord)⟩ =>
    match answer with
    | .ok verified => some ⟨⟨containerId, release, imageRef, identity⟩, policy, verified⟩
    | .error _ => none
  | _ => none

/-- The release whose Compose document was refused. -/
def refused : Step → Option Uuid
  | ⟨_, .compose .deployCandidate release, (answer : Except ComposeError Unit)⟩ =>
    match answer with
    | .ok _ => none
    | .error e => if e.isValidation then some release else none
  | _ => none

def loadedRelease : Step → Option (Uuid × Release)
  | ⟨_, .loadV2Release id, (answer : Option Release)⟩ => answer.map (id, ·)
  | _ => none

def loadedConfig : Step → Option (Uuid × Config)
  | ⟨_, .loadVerified revision, (answer : Option Config)⟩ => answer.map (revision, ·)
  | _ => none

/-- The latest `f` since the last Compose action. -/
def sinceCompose (f : Step → Option β) : Log → Option β
  | [] => none
  | ev :: earlier => if ev.call.isCompose then none else (f ev).or (sinceCompose f earlier)

/-- The app's containers, as last listed, if no Compose action followed. -/
def listed (log : Log) : Option (List ContainerRecord) := sinceCompose listing log

/-- The last verification that passed, if no Compose action followed. -/
def gated (log : Log) : Option Gate := sinceCompose gate log

/-- Some Compose action was issued. -/
def composed (log : Log) : Bool := log.any fun ev => ev.call.isCompose

/-- All containers that the app was last seen with are of the given release. -/
def Shown (release : Option Uuid) (log : Log) : Prop :=
  ∃ cs, listed log = some cs ∧ ∀ c ∈ cs, c.releaseId = release

def Refused (release : Uuid) (log : Log) : Prop := ∃ ev ∈ log, refused ev = some release

def Loaded (id : Uuid) (release : Release) (log : Log) : Prop :=
  ∃ ev ∈ log, loadedRelease ev = some (id, release)

def ConfigLoaded (revision : Uuid) (config : Config) (log : Log) : Prop :=
  ∃ ev ∈ log, loadedConfig ev = some (revision, config)

/-! ## The view -/

def Status.isOpen : Status → Bool
  | .queued | .running => true
  | _ => false

/-- What the results about whole runs read of a state. -/
structure View where
  opened : Bool
  record : Record
  slug : String
  effects : Effects
  active : Option Uuid
  pending : Option Uuid
  candidate : Option Uuid
  listed : Option (List ContainerRecord)
  gated : Option Gate
  composed : Bool

def view (s : State) : View where
  opened := s.1.status.isOpen
  record := s.1.record
  slug := s.1.slug
  effects := s.1.effects
  active := s.1.active
  pending := s.1.pending
  candidate := s.1.core.candidate
  listed := listed s.2
  gated := gated s.2
  composed := composed s.2

/-- The run is not over. -/
def Open (s : State) : Prop := (view s).opened = true

/-- The log has only grown, and the view is `v`. -/
def Becomes (s : State) (v : View) (s' : State) : Prop := view s' = v ∧ s.2 <:+ s'.2

/-- Nothing of the view has changed. -/
def Follows (s s' : State) : Prop := Becomes s (view s) s'

section Growth

variable {s s' s'' : State} {v v' : View}

theorem Follows.refl (s : State) : Follows s s := ⟨rfl, List.suffix_refl _⟩

theorem Becomes.trans (h : Becomes s v s') (h' : Becomes s' v' s'') : Becomes s v' s'' :=
  ⟨h'.1, h.2.trans h'.2⟩

theorem Becomes.follow (h : Becomes s v s') (h' : Follows s' s'') : Becomes s v s'' :=
  ⟨h'.1.trans h.1, h.2.trans h'.2⟩

theorem Follows.follow (h : Follows s s') (h' : Follows s' s'') : Follows s s'' :=
  Becomes.follow h h'

theorem Becomes.open (h : Becomes s v s') (hv : v.opened = true) : Open s' := by
  unfold Open
  rw [h.1]
  exact hv

theorem Follows.open (h : Follows s s') (hs : Open s) : Open s' :=
  Becomes.open h hs

variable {log log' : Log}

theorem Loaded.mono {id : Uuid} {release : Release} (h : Loaded id release log)
    (hlog : log <:+ log') : Loaded id release log' := by
  obtain ⟨ev, hev, heq⟩ := h
  exact ⟨ev, hlog.subset hev, heq⟩

theorem ConfigLoaded.mono {revision : Uuid} {config : Config}
    (h : ConfigLoaded revision config log) (hlog : log <:+ log') :
    ConfigLoaded revision config log' := by
  obtain ⟨ev, hev, heq⟩ := h
  exact ⟨ev, hlog.subset hev, heq⟩

/-- What was refused stays refused. -/
theorem Refused.mono {release : Uuid} (h : Refused release log)
    (hlog : log <:+ log') : Refused release log' := by
  obtain ⟨ev, hev, heq⟩ := h
  exact ⟨ev, hlog.subset hev, heq⟩

end Growth

/-- The calls that leave the view alone. -/
def Passive : Call → Bool
  | .transition _ status _ _ => status = .running
  | .resolved .. | .markEffectStarted .. | .markEffectObserved .. | .markRollbackStarted ..
  | .markRollbackObserved .. | .setPending _ | .removePendingIf _ | .finalizeActive ..
  | .listComposeAppContainers .. | .compose .. | .verifyHealth .. => false
  | _ => true

theorem view_cons {w : Machine} {log : Log} {ev : Step} (hcompose : ev.call.isCompose = false)
    (hlisting : listing ev = none) (hgate : gate ev = none) :
    view (w, ev :: log) = view (w, log) := by
  simp [view, listed, gated, composed, sinceCompose, hcompose, hlisting, hgate]

theorem act_transition_running (w : Machine) (phase : Phase) (result : String)
    (code : Option String) (ok : Bool) (log : Log) :
    view ((act w (.transition phase .running result code) ok).2, log) = view (w, log) := by
  by_cases h : ok = true ∧ (w.status = .queued ∨ w.status = .running)
  · have hact : act w (.transition phase .running result code) ok =
        (some (), { w with phase, status := .running }) := if_pos h
    have hopen : w.status.isOpen = true := by
      rcases h.2 with hs | hs <;> rw [hs] <;> rfl
    rw [hact]
    unfold view
    rw [hopen]
    rfl
  · have hact : act w (.transition phase .running result code) ok = (none, w) := if_neg h
    rw [hact]

theorem passive_view {e : Call} (he : Passive e = true) (s : State) (c : Choice e) :
    view (engineWorld.act s e c).2 = view s := by
  cases e with
  | transition phase status result code =>
    obtain rfl : status = .running := by simpa [Passive] using he
    exact (view_cons rfl rfl rfl).trans (act_transition_running s.1 phase result code c s.2)
  | readReleaseLink link => cases link <;> rfl
  | resolved | markEffectStarted | markEffectObserved | markRollbackStarted
  | markRollbackObserved | setPending | removePendingIf | finalizeActive
  | listComposeAppContainers | compose | verifyHealth => cases he
  | _ => rfl

/-! ## The law of a run -/

/-- What was known of a container when it passed: its release as stored, the configuration,
the container at the gate, and the container when it was looked at again. -/
structure Evidence where
  release : Release
  config : Config
  identity : ImageIdentity
  verified : ContainerRecord
  final : ContainerRecord

/-- The evidence that container `id` of release `release` is the app's only container and
passed the health gate and the recheck, with no Compose action since. -/
structure Evidence.Proves (x : Evidence) (s : State) (release : Uuid) (id : String) : Prop where
  loaded : Loaded release x.release s.2
  configured : ConfigLoaded x.release.configRevision x.config s.2
  identity : x.release.imageIdentity = .ok x.identity
  gated : gated s.2 = some
    ⟨⟨id, release, x.release.runnableImageRef, x.identity⟩, x.config.health, x.verified⟩
  passed : Passed ⟨id, release, x.release.runnableImageRef, x.identity⟩ x.config.health x.verified
  listed : listed s.2 = some [x.final]
  same : x.final.id = id
  owned : validateSyntacticIdentity x.final ⟨s.1.record.appId, projectName s.1.slug⟩ = some release
  running : candidateMatchesRelease x.final x.release = true
  rechecked : recheck x.verified x.final x.config.health = .ok ()

def Proven (s : State) (release : Uuid) (id : String) : Prop :=
  ∃ x : Evidence, x.Proves s release id

/-- The candidate was active, its container verified, and nothing was pending. -/
def Committed (s : State) : Prop :=
  ∃ candidate id, s.1.core.candidate = some candidate ∧ s.1.active = some candidate ∧
    s.1.pending = none ∧ s.1.effects.postContainerId = some id ∧ Proven s candidate id

/-- The old release was active, nothing pending, and a container of it verified that is not
the one that was rolled back. -/
def RolledBack (s : State) : Prop :=
  ∃ old failed id, s.1.record.fromReleaseId = some old ∧ s.1.active = some old ∧
    s.1.pending = none ∧ s.1.effects.rollbackPreContainerId = some failed ∧
    s.1.effects.rollbackPostContainerId = some id ∧ id ≠ failed ∧ Proven s old id

section Law

variable (record : Record) (a₀ p₀ : Option Uuid)

/-- No Compose action was issued, and the links are as they were. -/
def Untouched (s : State) : Prop :=
  composed s.2 = false ∧ s.1.active = a₀ ∧ s.1.pending = p₀

/-- What stands behind a terminal status. -/
structure Meaning (s : State) : Prop where
  succeeded : s.1.status = .succeeded → Committed s
  rolledBack : s.1.status = .rolledBack → RolledBack s
  noOp : s.1.status = .noOp → Untouched a₀ p₀ s

/-- The candidate of the run: a new one, the pending one, or the target of a rollback,
before which the app was seen with the expected containers only. -/
def IsCandidate (candidate : Uuid) (log : Log) : Prop :=
  record.expectedPendingReleaseId = none ∨ record.expectedPendingReleaseId = some candidate ∨
    (record.trigger = .rollback ∧ record.rollbackTargetReleaseId = some candidate ∧
      Shown record.expectedActualReleaseId log)

/-- Why a pending release is let go of: nothing was pending when the run was scheduled; its
document was refused, and only the expected containers were seen; no container was left; or
only containers of the active release were seen. -/
def LetGo (w : Machine) (pending : Uuid) (log : Log) : Prop :=
  record.expectedPendingReleaseId = none ∨
    (Refused pending log ∧ Shown record.expectedActualReleaseId log) ∨
    listed log = some [] ∨ ∃ old, w.active = some old ∧ Shown (some old) log

/-- Why a call changes the pending link. -/
def Reason (w : Machine) (log : Log) : Call → Prop
  | .setPending id => w.pending ≠ some id ∧ IsCandidate record id log
  | .removePendingIf id => w.pending = some id ∧ LetGo record w id log
  | _ => False

/-- The last call left the pending link alone, made the release it named active, or had a
reason, and then left the active link alone. -/
def LinkLaw (s : State) : Prop :=
  match s.2 with
  | [] => True
  | ev :: earlier =>
    s.1.pending = ev.before.pending ∨
      (∃ p, ev.before.pending = some p ∧ s.1.active = some p) ∨
      (s.1.active = ev.before.active ∧ Reason record ev.before earlier ev.call)

def Law (s : State) : Prop := LinkLaw record s ∧ Meaning a₀ p₀ s

variable {record a₀ p₀} {s s' : State}

theorem meaning_of_open (hs : Open s) : Meaning a₀ p₀ s := by
  have hopen : s.1.status.isOpen = true := hs
  exact {
    succeeded := fun h => by rw [h] at hopen; cases hopen
    rolledBack := fun h => by rw [h] at hopen; cases hopen
    noOp := fun h => by rw [h] at hopen; cases hopen }

theorem law_of_open {w : Machine} {ev : Step} {log : Log} (hs : Open (w, ev :: log))
    (hpending : w.pending = ev.before.pending) : Law record a₀ p₀ (w, ev :: log) :=
  ⟨.inl hpending, meaning_of_open hs⟩

end Law

/-! ## Triples -/

section Triples

variable {record : Record} {a₀ p₀ : Option Uuid} {s : State} {α β : Type}

/-- Every call of the program obeys the law; on an error the run is still open, and on
success `I` holds. -/
def Run (record : Record) (a₀ p₀ : Option Uuid) (p : EngineProg α) (s : State)
    (I : α → State → Prop) : Prop :=
  engineWorld.wp (fun _ _ _ => True) (Law record a₀ p₀) p
    (fun r s' => match r with
      | .ok a => I a s'
      | .error _ => Open s') s

variable {I : α → State → Prop} {err : EngineError} {p : EngineProg α}

theorem run_pure {a : α} (h : I a s) : Run record a₀ p₀ (pure a) s I := h

theorem run_stop (hs : Open s) : Run record a₀ p₀ (stop err) s I := hs

theorem run_mono {J : α → State → Prop}
    (h : Run record a₀ p₀ p s I) (hI : ∀ a s', I a s' → J a s') : Run record a₀ p₀ p s J := by
  refine World.wp_mono h fun r s' hr => ?_
  cases r with
  | ok a => exact hI a s' hr
  | error err => exact hr

variable {J : β → State → Prop} {k : α → EngineProg β} {f : ε' → EngineError}

section Binds

theorem run_bind (hp : Run record a₀ p₀ p s I) (hk : ∀ a s', I a s' → Run record a₀ p₀ (k a) s' J) :
    Run record a₀ p₀ (p >>= k) s J :=
  World.wp_part hp (fun a s' h => hk a s' h) fun _ _ h => h

theorem run_ensure_bind {c : Bool} {k : Unit → EngineProg β} (hs : Open s)
    (hk : c = true → Run record a₀ p₀ (k ()) s J) : Run record a₀ p₀ (ensure c err >>= k) s J :=
  World.wp_ensure_bind hk fun _ => hs

theorem run_orStop_bind {o : Option α} (hs : Open s)
    (hk : ∀ a, o = some a → Run record a₀ p₀ (k a) s J) :
    Run record a₀ p₀ (orStop o err >>= k) s J :=
  World.wp_orStop_bind hk fun _ => hs

theorem run_orElse_bind {x : Except ε' α} (hs : Open s)
    (hk : ∀ a, x = .ok a → Run record a₀ p₀ (k a) s J) : Run record a₀ p₀ (orElse x f >>= k) s J :=
  World.wp_orElse_bind hk fun _ _ => hs

end Binds

theorem run_ensure {c : Bool} (hs : Open s) :
    Run record a₀ p₀ (ensure c err) s fun _ s' => s' = s ∧ c = true := by
  cases c with
  | true => exact ⟨rfl, rfl⟩
  | false => exact hs

theorem run_orStop {o : Option α} (hs : Open s) :
    Run record a₀ p₀ (orStop o err) s fun a s' => s' = s ∧ o = some a := by
  cases o with
  | some a => exact ⟨rfl, rfl⟩
  | none => exact hs

theorem run_orElse {x : Except ε' α} (hs : Open s) :
    Run record a₀ p₀ (orElse x f) s fun a s' => s' = s ∧ x = .ok a := by
  cases x with
  | ok a => exact ⟨rfl, rfl⟩
  | error e => exact hs

theorem run_attempt (h : Run record a₀ p₀ p s I) :
    Run record a₀ p₀ (p.attempt : EngineProg (Except EngineError α)) s
      fun r s' => match r with
        | .ok a => I a s'
        | .error _ => Open s' := by
  unfold Run
  rw [World.wp_attempt]
  exact h

theorem run_passive (hp : p.Only fun e => Passive e = true) (hs : Open s) :
    Run record a₀ p₀ p s fun _ s' => Follows s s' := by
  induction p generalizing s with
  | done a => exact .refl s
  | fail err => exact hs
  | call e k ih =>
    intro c _
    have hview : view (engineWorld.act s e c).2 = view s := passive_view hp.1 s c
    have hfollows : Follows s (engineWorld.act s e c).2 := ⟨hview, List.suffix_cons _ _⟩
    have hopen := hfollows.open hs
    refine ⟨law_of_open hopen (congrArg View.pending hview), ?_⟩
    exact run_mono (ih _ (hp.2 _) hopen) fun _ _ h => hfollows.follow h

theorem run_passive_bind (hp : p.Only fun e => Passive e = true) (hs : Open s)
    (hk : ∀ a s', Follows s s' → Open s' → Run record a₀ p₀ (k a) s' J) :
    Run record a₀ p₀ (p >>= k) s J :=
  run_bind (run_passive hp hs) fun a s' h => hk a s' h (h.open hs)

end Triples

end SoloDock.Deploy
