import SoloDock.Db.Stored
import SoloDock.Deploy.Machine
import SoloDock.Mutation.Attempts

/-!
# The deployment ledger

The tables `deployments` and `deployment_transitions` with the statements of
`deploy/ledger.rs` and `claim_deployment` of `idempotency.rs`. Every statement is one
transaction: it commits, or it leaves the tables as they were. A row is inserted only if no
deployment of its app is queued or running (a partial unique index), and every update but
the restart's is guarded by the status, and the markers by the marker before.

What a statement can do is said once (`Change`): it adds a queued row with its first
transition, moves an open row on together with a new transition, notes something in rows
without touching status or phase, or closes every open row. The laws of the ledger follow
from that by induction over the statements (`deployment_ledger_lawful`).
-/

namespace SoloDock.Deploy

open Lib Db Mutation

/-! ## The tables -/

def Status.isTerminal : Status → Bool
  | .queued | .running => false
  | _ => true

/-- A row of `deployments`. -/
structure Row where
  record : Record
  predecessorRuntimeReleaseId : Option Uuid := none
  candidateReleaseId : Option Uuid := none
  rollbackOfDeploymentId : Option Uuid
  status : Status
  phase : Phase
  sourceImageRef : Option String := none
  sourceDescriptorDigest : Option String := none
  manifestDigest : Option String := none
  platform : Option String := none
  errorClass : Option String := none
  errorCode : Option String := none
  healthPolicy : Option String := none
  healthResult : Option String := none
  effects : Effects := {}
  requestId : Uuid
  createdAt : String
  startedAt : Option String := none
  completedAt : Option String := none
  updatedAt : String
deriving DecidableEq, Repr

namespace Row

def id (r : Row) : Uuid := r.record.id

def appId (r : Row) : Uuid := r.record.appId

end Row

/-- A row of `deployment_transitions`. -/
structure Transition where
  deploymentId : Uuid
  seq : Nat
  phase : Phase
  result : String
  code : Option String
  createdAt : String
deriving DecidableEq, Repr

/-- The rows of `audit_events` that the ledger writes. -/
inductive AuditEvent where
  | attempt (actor : Actor) (route : String) (deployment requestId : Uuid) (createdAt : String)
  | deploymentTerminal (appId deployment requestId : Uuid) (trigger : Trigger) (status : Status)
      (code : Option String) (createdAt : String)
deriving DecidableEq, Repr

structure Tables where
  deployments : List Row
  transitions : List Transition
  audit : List AuditEvent
  records : Mutation.Ledger (Actor × String) String Uuid
deriving DecidableEq

inductive LedgerError where
  | busy | stateChanged | corrupt | database
deriving DecidableEq, Repr

namespace Tables

def empty : Tables := ⟨[], [], [], []⟩

def transitionsOf (s : Tables) (id : Uuid) : List Transition :=
  s.transitions.filter (·.deploymentId = id)

/-! ## The statements -/

/-- The primary key and the index `deployments_one_nonterminal_per_app` admit the row. -/
def accepts (s : Tables) (row : Row) : Bool :=
  s.deployments.all fun r => r.id ≠ row.id && (r.appId ≠ row.appId || r.status.isTerminal)

/-- The row of a deployment that is scheduled at `text`. -/
def queuedRow (record : Record) (rollbackOf : Option Uuid) (requestId : Uuid) (text : String) :
    Row :=
  { record
    rollbackOfDeploymentId := rollbackOf
    status := .queued
    phase := .queued
    requestId
    createdAt := text
    updatedAt := text }

/-- A queued row and its first transition. -/
def insert (s : Tables) (row : Row) : Tables :=
  { s with
    deployments := s.deployments ++ [row]
    transitions := s.transitions ++ [⟨row.id, 1, .queued, "scheduled", none, row.createdAt⟩] }

/-- `create`; the columns it does not name are null. -/
def create (s : Tables) (id app : Uuid) (trigger : Trigger) (requestedRevision : Uuid)
    (fromRelease rollbackTarget rollbackOf : Option Uuid) (requestId : Uuid) (now : Instant) :
    Except LedgerError Tables :=
  match formatTime now with
  | .error _ => .error .database
  | .ok text =>
    let record : Record :=
      ⟨id, app, trigger, requestedRevision, fromRelease, none, none, none, rollbackTarget, none,
        none, none, none, none, none, none, none, none, none, none⟩
    let row := queuedRow record rollbackOf requestId text
    if s.accepts row then .ok (s.insert row) else .error .busy

/-- `claim_deployment`; the operation is the deployment, and `record.id` the id drawn for
it. -/
def claimDeployment (s : Tables) (route key request : String) (record : Record)
    (rollbackOf : Option Uuid) (requestId : Uuid) (now : Instant) :
    Except IdempotencyError (ClaimResult Uuid × Tables) :=
  match formatTime now with
  | .error _ => .error .database
  | .ok text =>
    let actor := if record.trigger = .poll then Actor.system else Actor.admin
    let row := queuedRow record rollbackOf requestId text
    match s.records.claimDeployment (actor, route) key request record.id (s.accepts row) id with
    | .error error => .error error
    | .ok (.new operation, records) =>
      .ok (.new operation,
        { s.insert row with
          records
          audit := s.audit ++ [.attempt actor route operation requestId text] })
    | .ok (result, records) => .ok (result, { s with records })

/-- `UPDATE deployments SET … WHERE …` of exactly one row. -/
def updateOne (s : Tables) (p : Row → Bool) (f : Row → Row) : Except LedgerError Tables :=
  if s.deployments.countP p = 1 then
    .ok { s with deployments := s.deployments.map fun r => if p r then f r else r }
  else .error .stateChanged

/-- `SELECT COALESCE(MAX(seq),0)+1`. -/
def nextSeq (s : Tables) (id : Uuid) : Nat := ((s.transitionsOf id).map (·.seq)).foldr max 0 + 1

/-- What `transition` writes into the row. -/
def moved (phase : Phase) (status : Status) (code : Option String) (text : String) (r : Row) :
    Row :=
  { r with
    phase, status
    startedAt := r.startedAt.or (if status = .running then some text else none)
    completedAt := if status.isTerminal then some text else r.completedAt
    errorCode := code
    updatedAt := text }

/-- The audit event of the row's end. -/
def terminalEvent (status : Status) (code : Option String) (text : String) (r : Row) : AuditEvent :=
  .deploymentTerminal r.appId r.id r.requestId r.record.trigger status code text

/-- `transition`; what it does to `poll_states` stands in `Poll/Tables.lean`. -/
def transition (s : Tables) (id : Uuid) (phase : Phase) (status : Status) (result : String)
    (code : Option String) (now : Instant) : Except LedgerError Tables :=
  match formatTime now with
  | .error _ => .error .database
  | .ok text =>
    match s.updateOne (fun r => r.id = id && !r.status.isTerminal)
        (moved phase status code text) with
    | .error error => .error error
    | .ok s' =>
      .ok { s' with
        transitions := s.transitions ++ [⟨id, s.nextSeq id, phase, result, code, text⟩]
        audit := if status.isTerminal then
            s.audit ++ (s.deployments.filter (·.id = id)).map (terminalEvent status code text)
          else s.audit }

/-- An update of one running row that `guard` admits. -/
def note (s : Tables) (id : Uuid) (now : Instant) (guard : Row → Bool) (f : Row → Row) :
    Except LedgerError Tables :=
  match formatTime now with
  | .error _ => .error .database
  | .ok text =>
    s.updateOne (fun r => r.id = id && r.status = .running && guard r) fun r =>
      { f r with updatedAt := text }

def resolved (s : Tables) (id candidate : Uuid) (predecessor : Option Uuid)
    (source descriptor manifest platform : String) (now : Instant) : Except LedgerError Tables :=
  s.note id now (fun _ => true) fun r =>
    { r with
      candidateReleaseId := some candidate
      predecessorRuntimeReleaseId := predecessor
      sourceImageRef := some source
      sourceDescriptorDigest := some descriptor
      manifestDigest := some manifest
      platform := some platform }

/-- `set_health`, which asks for nothing but the id. -/
def setHealth (s : Tables) (id : Uuid) (policy result : String) (now : Instant) :
    Except LedgerError Tables :=
  match formatTime now with
  | .error _ => .error .database
  | .ok text =>
    .ok { s with deployments := s.deployments.map fun r =>
      if r.id = id then
        { r with healthPolicy := some policy, healthResult := some result, updatedAt := text }
      else r }

def markEffectStarted (s : Tables) (id : Uuid) (pre startedAt : Option String) (now : Instant) :
    Except LedgerError Tables :=
  s.note id now (fun r => r.phase = .applying && r.effects.phase = none) fun r =>
    { r with effects := { r.effects with
      phase := some .started, preContainerId := pre, preStartedAt := startedAt } }

def markEffectObserved (s : Tables) (id : Uuid) (post : String) (now : Instant) :
    Except LedgerError Tables :=
  s.note id now (fun r => r.effects.phase = some .started) fun r =>
    { r with effects := { r.effects with phase := some .observed, postContainerId := some post } }

def markRollbackStarted (s : Tables) (id : Uuid) (pre : String) (now : Instant) :
    Except LedgerError Tables :=
  s.note id now (fun r => r.effects.rollbackPhase = none) fun r =>
    { r with effects := { r.effects with
      rollbackPhase := some .started, rollbackPreContainerId := some pre } }

def markRollbackObserved (s : Tables) (id : Uuid) (post : Option String) (now : Instant) :
    Except LedgerError Tables :=
  s.note id now (fun r => r.effects.rollbackPhase = some .started) fun r =>
    { r with effects := { r.effects with
      rollbackPhase := some .observed, rollbackPostContainerId := post } }

/-- What the restart writes into an open row. -/
def interrupted (text : String) (r : Row) : Row :=
  { r with
    status := .interrupted
    phase := .terminal
    errorClass := some "interrupted"
    errorCode := some "DEPLOYMENT_INTERRUPTED"
    completedAt := some text
    updatedAt := text }

/-- `interrupt_nonterminal`, at startup. -/
def interruptNonterminal (s : Tables) (now : Instant) : Except LedgerError Tables :=
  match formatTime now with
  | .error _ => .error .database
  | .ok text =>
    .ok { s with deployments := s.deployments.map fun r =>
      if r.status.isTerminal then r else interrupted text r }

end Tables

/-! ## Histories -/

inductive Statement where
  | create (id app : Uuid) (trigger : Trigger) (requestedRevision : Uuid)
      (fromRelease rollbackTarget rollbackOf : Option Uuid) (requestId : Uuid)
  | claimDeployment (route key request : String) (record : Record) (rollbackOf : Option Uuid)
      (requestId : Uuid)
  | transition (id : Uuid) (phase : Phase) (status : Status) (result : String)
      (code : Option String)
  | resolved (id candidate : Uuid) (predecessor : Option Uuid)
      (source descriptor manifest platform : String)
  | setHealth (id : Uuid) (policy result : String)
  | markEffectStarted (id : Uuid) (pre startedAt : Option String)
  | markEffectObserved (id : Uuid) (post : String)
  | markRollbackStarted (id : Uuid) (pre : String)
  | markRollbackObserved (id : Uuid) (post : Option String)
  | interruptNonterminal
deriving DecidableEq

/-- The tables a statement leaves when it is executed; `none` if it fails. -/
def Statement.execute (s : Tables) (now : Instant) : Statement → Option Tables
  | .create id app trigger revision fromRelease rollbackTarget rollbackOf requestId =>
    (s.create id app trigger revision fromRelease rollbackTarget rollbackOf requestId now).toOption
  | .claimDeployment route key request record rollbackOf requestId =>
    ((s.claimDeployment route key request record rollbackOf requestId now).map (·.2)).toOption
  | .transition id phase status result code =>
    (s.transition id phase status result code now).toOption
  | .resolved id candidate predecessor source descriptor manifest platform =>
    (s.resolved id candidate predecessor source descriptor manifest platform now).toOption
  | .setHealth id policy result => (s.setHealth id policy result now).toOption
  | .markEffectStarted id pre startedAt => (s.markEffectStarted id pre startedAt now).toOption
  | .markEffectObserved id post => (s.markEffectObserved id post now).toOption
  | .markRollbackStarted id pre => (s.markRollbackStarted id pre now).toOption
  | .markRollbackObserved id post => (s.markRollbackObserved id post now).toOption
  | .interruptNonterminal => (s.interruptNonterminal now).toOption

/-- A statement made at some time, and whether its transaction commits. -/
structure Deed where
  statement : Statement
  now : Instant
  commits : Bool
deriving DecidableEq

/-- What a deed leaves: a statement that fails or does not commit is rolled back. -/
def Tables.step (s : Tables) (d : Deed) : Tables :=
  if d.commits then (d.statement.execute s d.now).getD s else s

/-! ## What a statement can do -/

/-- A marker with the container it names stays, is set to started, or goes from started to
observed. -/
def Marks (phase phase' : Option EffectPhase) (post post' : Option String) : Prop :=
  phase' = phase ∧ post' = post ∨ phase = none ∧ phase' = some .started ∧ post' = post ∨
    phase = some .started ∧ phase' = some .observed

/-- A row was noted something in. -/
structure Noted (r r' : Row) : Prop where
  record : r'.record = r.record
  status : r'.status = r.status
  phase : r'.phase = r.phase
  apply : Marks r.effects.phase r'.effects.phase r.effects.postContainerId
    r'.effects.postContainerId
  rollback : Marks r.effects.rollbackPhase r'.effects.rollbackPhase
    r.effects.rollbackPostContainerId r'.effects.rollbackPostContainerId

theorem marks_same {phase : Option EffectPhase} {post : Option String} :
    Marks phase phase post post := .inl ⟨rfl, rfl⟩

theorem noted_refl (r : Row) : Noted r r := ⟨rfl, rfl, rfl, marks_same, marks_same⟩

/-- The audit event is of the end of the deployment. -/
def AuditEvent.ends (id : Uuid) : AuditEvent → Bool
  | .deploymentTerminal _ deployment .. => deployment = id
  | .attempt .. => false

/-- The audit events of the end of a deployment. -/
def Tables.endings (s : Tables) (id : Uuid) : List AuditEvent := s.audit.filter (·.ends id)

/-- What becomes of the tables with a statement. -/
inductive Change (statement : Statement) (s s' : Tables) : Prop where
  /-- a queued row is added, with its first transition -/
  | added (row : Row) (haccepts : s.accepts row = true) (hstatus : row.status = .queued)
      (hphase : row.phase = .queued) (heffects : row.effects = {})
      (hdeployments : s'.deployments = s.deployments ++ [row])
      (htransitions : s'.transitions =
        s.transitions ++ [⟨row.id, 1, .queued, "scheduled", none, row.createdAt⟩])
      (hendings : ∀ id, s'.endings id = s.endings id)
  /-- one open row moves on -/
  | moved (row : Row) (phase : Phase) (status : Status) (result : String) (code : Option String)
      (text : String) (hstatement : statement = .transition row.id phase status result code)
      (hrow : row ∈ s.deployments) (hopen : row.status.isTerminal = false)
      (hdeployments : s'.deployments = s.deployments.map fun r =>
        if r.id = row.id && !r.status.isTerminal then Tables.moved phase status code text r else r)
      (htransitions : s'.transitions =
        s.transitions ++ [⟨row.id, s.nextSeq row.id, phase, result, code, text⟩])
      (haudit : s'.audit = if status.isTerminal then
          s.audit ++ (s.deployments.filter (·.id = row.id)).map
            (Tables.terminalEvent status code text)
        else s.audit)
  /-- rows keep their status and phase -/
  | noted (g : Row → Row) (hnoted : ∀ r, Noted r (g r))
      (hdeployments : s'.deployments = s.deployments.map g)
      (htransitions : s'.transitions = s.transitions) (haudit : s'.audit = s.audit)
  /-- the restart closes every open row -/
  | closed (text : String) (hstatement : statement = .interruptNonterminal)
      (hdeployments : s'.deployments = s.deployments.map fun r =>
        if r.status.isTerminal then r else Tables.interrupted text r)
      (htransitions : s'.transitions = s.transitions) (haudit : s'.audit = s.audit)

theorem Change.refl (statement : Statement) (s : Tables) : Change statement s s :=
  .noted (fun r => r) noted_refl (by simp) rfl rfl

section Statements

variable {statement : Statement} {s s' : Tables}

namespace Tables

theorem updateOne_ok {p : Row → Bool} {f : Row → Row} (h : s.updateOne p f = .ok s') :
    (∃ r ∈ s.deployments, p r = true) ∧
      s' = { s with deployments := s.deployments.map fun r => if p r then f r else r } := by
  unfold updateOne at h
  by_cases hone : s.deployments.countP p = 1
  · rw [if_pos hone] at h
    refine ⟨List.countP_pos_iff.mp (by omega), (Except.ok.inj h).symm⟩
  · rw [if_neg hone] at h
    cases h

variable {id requestId : Uuid} {now : Instant} {rollbackOf : Option Uuid}

theorem ok_of_formatTime {f : String → Except ε α} {error : ε} {a : α}
    (h : (match formatTime now with
      | .error _ => Except.error error
      | .ok text => f text) = .ok a) : ∃ text, f text = .ok a := by
  split at h
  · cases h
  next text _ => exact ⟨text, h⟩

theorem note_step {guard : Row → Bool} {f : Row → Row}
    (hf : ∀ r, guard r = true → Noted r (f r)) (h : s.note id now guard f = .ok s') :
    Change statement s s' := by
  obtain ⟨text, h⟩ := ok_of_formatTime h
  obtain ⟨-, rfl⟩ := updateOne_ok h
  refine .noted _ (fun r => ?_) rfl rfl rfl
  split
  next hp =>
    have hguard : guard r = true := by
      simp only [Bool.and_eq_true] at hp
      exact hp.2
    obtain ⟨hrecord, hstatus, hphase, happly, hrollback⟩ := hf r hguard
    exact ⟨hrecord, hstatus, hphase, happly, hrollback⟩
  · exact noted_refl r

theorem create_step {app : Uuid} {trigger : Trigger} {revision : Uuid}
    {fromRelease rollbackTarget : Option Uuid}
    (h : s.create id app trigger revision fromRelease rollbackTarget rollbackOf requestId now
      = .ok s') : Change statement s s' := by
  obtain ⟨text, h⟩ := ok_of_formatTime h
  dsimp only at h
  split at h
  next haccepts =>
    cases h
    exact .added _ haccepts rfl rfl rfl rfl rfl fun _ => rfl
  · cases h

theorem idle_of_new {l l' : Mutation.Ledger (Actor × String) String Uuid} {route : Actor × String}
    {key request : String} {fresh operation : Uuid} {idle : Bool} {body : Uuid → Uuid}
    (h : l.claimDeployment route key request fresh idle body = .ok (.new operation, l')) :
    idle = true := by
  unfold Mutation.Ledger.claimDeployment at h
  split at h
  · cases h
  · split at h
    · split at h
      next hidle => exact hidle
      · cases h
    · split at h
      · cases h
      · split at h <;> cases h

theorem claimDeployment_step {route key request : String} {record : Record}
    {result : ClaimResult Uuid}
    (h : s.claimDeployment route key request record rollbackOf requestId now
      = .ok (result, s')) : Change statement s s' := by
  obtain ⟨text, h⟩ := ok_of_formatTime h
  dsimp only at h
  generalize hactor : (if record.trigger = .poll then Actor.system else Actor.admin) = actor at h
  cases hclaim : s.records.claimDeployment (actor, route) key request record.id
      (s.accepts (queuedRow record rollbackOf requestId text)) id with
  | error error =>
    rw [hclaim] at h
    cases h
  | ok claimed =>
    rw [hclaim] at h
    obtain ⟨claim, records⟩ := claimed
    cases claim with
    | new operation =>
      cases h
      refine .added _ (idle_of_new hclaim) rfl rfl rfl rfl rfl fun id => ?_
      simp [endings, AuditEvent.ends]
    | resume | replay =>
      cases h
      exact .noted (fun r => r) noted_refl (by simp) rfl rfl

theorem transition_step {phase : Phase} {status : Status} {result : String} {code : Option String}
    (h : s.transition id phase status result code now = .ok s') :
    Change (.transition id phase status result code) s s' := by
  obtain ⟨text, h⟩ := ok_of_formatTime h
  cases hone : s.updateOne (fun r => r.id = id && !r.status.isTerminal)
      (moved phase status code text) with
  | error error =>
    rw [hone] at h
    cases h
  | ok updated =>
    rw [hone] at h
    obtain ⟨⟨row, hrow, hp⟩, rfl⟩ := updateOne_ok hone
    simp only [Bool.and_eq_true, decide_eq_true_eq, Bool.not_eq_true'] at hp
    obtain ⟨rfl, hopen⟩ := hp
    cases h
    exact .moved row phase status result code text rfl hrow hopen rfl rfl rfl

theorem setHealth_step {policy result : String}
    (h : s.setHealth id policy result now = .ok s') : Change statement s s' := by
  obtain ⟨text, h⟩ := ok_of_formatTime h
  cases h
  refine .noted _ (fun r => ?_) rfl rfl rfl
  split
  · exact ⟨rfl, rfl, rfl, marks_same, marks_same⟩
  · exact noted_refl r

theorem interruptNonterminal_step (h : s.interruptNonterminal now = .ok s') :
    ∃ text, s' = { s with deployments := s.deployments.map fun r =>
      if r.status.isTerminal then r else interrupted text r } := by
  obtain ⟨text, h⟩ := ok_of_formatTime h
  exact ⟨text, (Except.ok.inj h).symm⟩

end Tables

theorem execute_step {now : Instant} (h : statement.execute s now = some s') :
    Change statement s s' := by
  cases statement with
  | create id app trigger revision fromRelease rollbackTarget rollbackOf requestId =>
    exact Tables.create_step (ok_of_toOption h)
  | claimDeployment route key request record rollbackOf requestId =>
    have hmap := ok_of_toOption h
    cases hclaim : s.claimDeployment route key request record rollbackOf requestId now with
    | error error =>
      rw [hclaim] at hmap
      cases hmap
    | ok claimed =>
      rw [hclaim] at hmap
      cases hmap
      exact Tables.claimDeployment_step hclaim
  | transition id phase status result code => exact Tables.transition_step (ok_of_toOption h)
  | resolved id candidate predecessor source descriptor manifest platform =>
    refine Tables.note_step (fun r _ => ?_) (ok_of_toOption h)
    exact ⟨rfl, rfl, rfl, marks_same, marks_same⟩
  | setHealth id policy result => exact Tables.setHealth_step (ok_of_toOption h)
  | markEffectStarted id pre startedAt =>
    refine Tables.note_step (fun r hguard => ?_) (ok_of_toOption h)
    simp only [Bool.and_eq_true, decide_eq_true_eq] at hguard
    exact ⟨rfl, rfl, rfl, .inr (.inl ⟨hguard.2, rfl, rfl⟩), marks_same⟩
  | markEffectObserved id post =>
    refine Tables.note_step (fun r hguard => ?_) (ok_of_toOption h)
    exact ⟨rfl, rfl, rfl, .inr (.inr ⟨of_decide_eq_true hguard, rfl⟩), marks_same⟩
  | markRollbackStarted id pre =>
    refine Tables.note_step (fun r hguard => ?_) (ok_of_toOption h)
    exact ⟨rfl, rfl, rfl, marks_same, .inr (.inl ⟨of_decide_eq_true hguard, rfl, rfl⟩)⟩
  | markRollbackObserved id post =>
    refine Tables.note_step (fun r hguard => ?_) (ok_of_toOption h)
    exact ⟨rfl, rfl, rfl, marks_same, .inr (.inr ⟨of_decide_eq_true hguard, rfl⟩)⟩
  | interruptNonterminal =>
    obtain ⟨text, rfl⟩ := Tables.interruptNonterminal_step (ok_of_toOption h)
    exact .closed text rfl rfl rfl rfl

end Statements

/-- What a statement can do to the tables. -/
theorem step_cases (s : Tables) (d : Deed) : Change d.statement s (s.step d) := by
  unfold Tables.step
  cases hcommits : d.commits with
  | false => exact Change.refl _ s
  | true =>
    rw [if_pos rfl]
    cases hs' : d.statement.execute s d.now with
    | none => exact Change.refl _ s
    | some s' => exact execute_step hs'

end SoloDock.Deploy
