import SoloDock.Lib.Service
import SoloDock.Lib.Threads
import SoloDock.Lib.Time

/-!
# Logins and sessions

`auth/mod.rs`, `auth/session.rs` and `auth/password.rs`. A login or a password change holds
the credential guard from its first step to its end, reads the clock once, and is refused
while the account is blocked; a wrong password is counted in the one row of
`auth_throttle`. A session is a row that authenticated requests read, refresh or delete
without the guard.

The stored times are instants here (they are written and read back as RFC 3339 texts), and
audit events are left out. The logs of the world are an account of what happened, newest
first; no program reads them.
-/

namespace SoloDock.Auth

open Lib

/-! ## Data -/

def throttleWindow : Int := Instant.minutes 15

def throttleLimit : Nat := 5

def throttleCooldown : Int := Instant.minutes 15

def absoluteTtl : Int := Instant.minutes (12 * 60)

def idleTtl : Int := Instant.minutes 60

def refreshInterval : Int := Instant.minutes 5

def idleExpiry (now absoluteExpiry : Instant) : Instant :=
  min (now + idleTtl) absoluteExpiry

/-- A row of `sessions`. -/
structure Session where
  id : Uuid
  tokenHash : Bytes
  createdAt : Instant
  lastSeenAt : Instant
  idleExpiresAt : Instant
  absoluteExpiresAt : Instant
  deriving DecidableEq, Repr

/-- One of the two deadlines has passed. -/
def Session.ExpiredAt (s : Session) (now : Instant) : Prop :=
  s.idleExpiresAt ≤ now ∨ s.absoluteExpiresAt ≤ now
  deriving Decidable

/-- The row of `auth_throttle`. -/
structure Throttle where
  windowStartedAt : Option Instant
  failureCount : Nat
  blockedUntil : Option Instant
  deriving DecidableEq, Repr

namespace Throttle

/-- The row after a success, and of a new installation. -/
def cleared : Throttle := ⟨none, 0, none⟩

/-- `blocked_until > now`. -/
def blockedAt (t : Throttle) (now : Instant) : Bool :=
  t.blockedUntil.any (now < ·)

/-- The failure falls into the window that is open. -/
def withinWindow (t : Throttle) (now : Instant) : Bool :=
  t.windowStartedAt.any (now - · < throttleWindow)

/-- The update of `record_credential_failure`. -/
def fail (t : Throttle) (now : Instant) : Throttle :=
  let count := if t.withinWindow now then t.failureCount + 1 else 1
  { windowStartedAt := if t.withinWindow now then t.windowStartedAt else some now
    failureCount := count
    blockedUntil := if throttleLimit ≤ count then some (now + throttleCooldown) else none }

end Throttle

inductive PasswordError where
  | policy
  | hash
  | worker
  | random
  deriving DecidableEq, Repr

inductive AuthError where
  | setupRequired
  | invalidCredentials
  | currentPasswordInvalid
  | cooldown (seconds : Int)
  | sessionRequired
  | sessionExpired
  | password (error : PasswordError)
  | database
  | secret
  deriving DecidableEq, Repr

structure LoginSession where
  sessionToken : String
  csrfToken : String
  createdAt : Instant
  expiresAt : Instant
  deriving DecidableEq, Repr

structure AuthenticatedSession where
  id : Uuid
  createdAt : Instant
  expiresAt : Instant
  deriving DecidableEq, Repr

/-! ## Calls -/

/-- `verify` names the attempt's clock reading and `insertSession` the hash that the password
was verified against, for the account; `admits` marks the moment at which a request finds its
session alive and `accept` the return of `authenticate`, and both do nothing. -/
inductive Call where
  | lockCredentialGuard
  | unlockCredentialGuard
  | now
  | hasAdmin
  | blockedUntil
  | auditCooldown
  | passwordHash
  | verify (now : Instant) (password encodedHash : String)
  | recordCredentialFailure (now : Instant)
  | generateToken
  | newId
  | insertSession (session : Session) (verified : String)
  | hash (password : String)
  | changePassword (passwordHash : String)
  | selectSession (tokenHash : Bytes)
  | deleteExpired (id : Uuid)
  | admits (id : Uuid) (now : Instant)
  | accept (id : Uuid) (now : Instant)
  | refresh (id : Uuid) (lastSeenAt idleExpiresAt : Instant)
  | deleteSession (tokenHash : Bytes)
  | deleteSessions

abbrev Answer : Call → Type
  | .lockCredentialGuard => Unit
  | .unlockCredentialGuard => Unit
  | .now => Instant
  | .hasAdmin => Except AuthError Bool
  | .blockedUntil => Except AuthError (Option Instant)
  | .auditCooldown => Except AuthError Unit
  | .passwordHash => Except AuthError (Option String)
  | .verify _ _ _ => Except PasswordError Bool
  | .recordCredentialFailure _ => Except AuthError Unit
  | .generateToken => Except AuthError String
  | .newId => Uuid
  | .insertSession _ _ => Except AuthError Unit
  | .hash _ => Except PasswordError String
  | .changePassword _ => Except AuthError Unit
  | .selectSession _ => Except AuthError (Option Session)
  | .deleteExpired _ => Except AuthError Unit
  | .admits _ _ => Unit
  | .accept _ _ => Unit
  | .refresh _ _ _ => Except AuthError Unit
  | .deleteSession _ => Except AuthError Unit
  | .deleteSessions => Except AuthError Unit

abbrev Handler := Prog Call Answer AuthError

open Prog

/-! ## The service -/

def ensureNotThrottled (now : Instant) : Handler Unit := do
  let row ← ask .blockedUntil
  let blockedUntil ← Prog.accept row
  match blockedUntil with
  | none => pure ()
  | some blockedUntil =>
    if now < blockedUntil then do
      let audited ← ask .auditCooldown
      let _ ← Prog.accept audited
      stop (.cooldown (max ((blockedUntil - now) / nanosPerSecond) 1))
    else pure ()

/-- `record_credential_failure`, and the error of the attempt. -/
def reject {α : Type} (now : Instant) (error : AuthError) : Handler α := do
  let recorded ← ask (.recordCredentialFailure now)
  let _ ← Prog.accept recorded
  stop error

def verify (now : Instant) (password encodedHash : String) : Handler Bool := do
  let verified ← ask (.verify now password encodedHash)
  orElse verified .password

/-- The check of `login`: another user name is a failure without a verification. -/
def credentialsValid (now : Instant) (username password encodedHash : String) : Handler Bool :=
  if username = "admin" then verify now password encodedHash else pure false

/-- The rest of a login whose credentials are valid. -/
def openSession (sha256 : String → Bytes) (now : Instant) (passwordHash : String) :
    Handler LoginSession := do
  let sessionToken ← ask .generateToken
  let sessionToken ← Prog.accept sessionToken
  let csrfToken ← ask .generateToken
  let csrfToken ← Prog.accept csrfToken
  let absoluteExpiresAt := now + absoluteTtl
  let id ← ask .newId
  let stored ← ask (.insertSession {
    id
    tokenHash := sha256 sessionToken
    createdAt := now
    lastSeenAt := now
    idleExpiresAt := idleExpiry now absoluteExpiresAt
    absoluteExpiresAt } passwordHash)
  let _ ← Prog.accept stored
  pure { sessionToken, csrfToken, createdAt := now, expiresAt := absoluteExpiresAt }

/-- The guard is held for the whole of an attempt, however it ends. -/
def withCredentialGuard {α : Type} (body : Handler α) : Handler α := do
  let _ ← ask .lockCredentialGuard
  let result ← body.attempt
  let _ ← ask .unlockCredentialGuard
  Prog.accept result

def login (sha256 : String → Bytes) (username password : String) : Handler LoginSession :=
    withCredentialGuard do
  let now ← ask .now
  let _ ← ensureNotThrottled now
  let row ← ask .passwordHash
  let row ← Prog.accept row
  let passwordHash ← orStop row .setupRequired
  let valid ← credentialsValid now username password passwordHash
  if valid then openSession sha256 now passwordHash else reject now .invalidCredentials

/-- The rest of a password change whose current password is valid. -/
def replacePassword (newPassword : String) : Handler Unit := do
  let hashed ← ask (.hash newPassword)
  let newPasswordHash ← orElse hashed .password
  let stored ← ask (.changePassword newPasswordHash)
  Prog.accept stored

def changePassword (currentPassword newPassword : String) : Handler Unit :=
    withCredentialGuard do
  let now ← ask .now
  let _ ← ensureNotThrottled now
  let row ← ask .passwordHash
  let row ← Prog.accept row
  let passwordHash ← orStop row .setupRequired
  let valid ← verify now currentPassword passwordHash
  if valid then replacePassword newPassword else reject now .currentPasswordInvalid

/-- The refresh of `authenticate`, for a session that was last seen long enough ago. -/
def refresh (row : Session) (now : Instant) : Handler Unit :=
  if refreshInterval ≤ now - row.lastSeenAt then do
    let refreshed ← ask (.refresh row.id now (idleExpiry now row.absoluteExpiresAt))
    Prog.accept refreshed
  else pure ()

/-- The rest of `authenticate` for a row that was read. -/
def enter (row : Session) : Handler AuthenticatedSession := do
  let now ← ask .now
  if row.ExpiredAt now then do
    let deleted ← ask (.deleteExpired row.id)
    let _ ← Prog.accept deleted
    stop .sessionExpired
  else do
    let _ ← ask (.admits row.id now)
    let _ ← refresh row now
    let _ ← ask (.accept row.id now)
    pure ⟨row.id, row.createdAt, row.absoluteExpiresAt⟩

def authenticate (sha256 : String → Bytes) (token : String) : Handler AuthenticatedSession := do
  let initialized ← ask .hasAdmin
  let initialized ← Prog.accept initialized
  let _ ← ensure initialized .setupRequired
  let row ← ask (.selectSession (sha256 token))
  let row ← Prog.accept row
  let row ← orStop row .sessionRequired
  enter row

def logout (sha256 : String → Bytes) (token : String) : Handler Unit := do
  let deleted ← ask (.deleteSession (sha256 token))
  Prog.accept deleted

def revokeAll : Handler Unit := do
  let deleted ← ask .deleteSessions
  Prog.accept deleted

/-! ## Requests -/

/-- The requests that the service answers. All but a login name the session they come from;
`authenticated` is any other request of a session. -/
inductive Request where
  | login (username password : String)
  | authenticated (token : String)
  | logout (token : String)
  | revokeAll (token : String)
  | changePassword (token currentPassword newPassword : String)
  deriving DecidableEq, Repr

def handle (sha256 : String → Bytes) : Request → Handler Unit
  | .login username password => do
    let _ ← login sha256 username password
    pure ()
  | .authenticated token => do
    let _ ← authenticate sha256 token
    pure ()
  | .logout token => do
    let _ ← authenticate sha256 token
    logout sha256 token
  | .revokeAll token => do
    let _ ← authenticate sha256 token
    revokeAll
  | .changePassword token currentPassword newPassword => do
    let _ ← authenticate sha256 token
    changePassword currentPassword newPassword

def serve (sha256 : String → Bytes) (request : Request) : Prog Call Answer Empty Unit := do
  let _ ← (handle sha256 request).attempt
  pure ()

/-! ## The world -/

/-- The account of credential attempts. `verified` tells whether the account was blocked at
the attempt's clock reading, `recorded` whether the failure opened a new window. -/
inductive Attempt where
  | verified (now : Instant) (valid blocked : Bool)
  | recorded (now : Instant) (opened : Bool)
  | succeeded
  deriving DecidableEq, Repr

/-- The account of sessions. `began` tells which sessions were alive, `created` the hash that the
login verified its password against and the one in force, `admitted` and `accepted` the clock
reading of the request. -/
inductive Event where
  | began (request : Nat) (live : List Uuid)
  | created (session : Session) (verified : String) (inForce : Option String)
  | admitted (request : Nat) (id : Uuid) (now : Instant)
  | accepted (request : Nat) (id : Uuid) (now : Instant)
  | expired (id : Uuid)
  | loggedOut (tokenHash : Bytes)
  | revoked
  | passwordChanged (passwordHash : String)
  deriving DecidableEq, Repr

/-- The tables, the holder of the credential guard, the last clock reading, the session ids
drawn so far, and the accounts. -/
structure World where
  passwordHash : Option String
  throttle : Throttle
  sessions : List Session
  guard : Option Nat
  clock : Instant
  drawn : List Uuid
  attempts : List Attempt
  log : List Event
  deriving DecidableEq, Repr

/-- A read fails or not, a write ends in one of three ways, a clock reading is some time after
the last one, and what is drawn or verified is the environment's pick. -/
abbrev Pick : Call → Type
  | .lockCredentialGuard => Unit
  | .unlockCredentialGuard => Unit
  | .now => Nat
  | .hasAdmin => Bool
  | .blockedUntil => Bool
  | .auditCooldown => Bool
  | .passwordHash => Bool
  | .verify _ _ _ => Except PasswordError Bool
  | .recordCredentialFailure _ => Outcome
  | .generateToken => Option String
  | .newId => Uuid
  | .insertSession _ _ => Outcome
  | .hash _ => Except PasswordError String
  | .changePassword _ => Outcome
  | .selectSession _ => Bool
  | .deleteExpired _ => Outcome
  | .admits _ _ => Unit
  | .accept _ _ => Unit
  | .refresh _ _ _ => Outcome
  | .deleteSession _ => Outcome
  | .deleteSessions => Outcome

namespace World

def read {α : Type} (works : Bool) (value : α) : Except AuthError α :=
  if works then .ok value else .error .database

def write (w : World) (outcome : Outcome) (changed : World) : Except AuthError Unit × World :=
  (outcome.result .database, if outcome.applied then changed else w)

/-- The sessions whose deadlines lie after the last clock reading. -/
def live (w : World) : List Uuid :=
  (w.sessions.filter fun s => ¬s.ExpiredAt w.clock).map (·.id)

/-- The guard is taken when it is free. -/
def lock (w : World) (i : Nat) : Option (Unit × World) :=
  if w.guard = none then some ((), { w with guard := some i }) else none

/-- The guard is given back by its holder. -/
def leave (w : World) (i : Nat) : World :=
  if w.guard = some i then { w with guard := none } else w

/-- A version 4 id is never drawn twice. -/
def draw (w : World) (id : Uuid) : Option (Uuid × World) :=
  if id ∈ w.drawn then none else some (id, { w with drawn := id :: w.drawn })

/-- The transaction of a login. -/
def insertSession (w : World) (session : Session) (verified : String) : World :=
  { w with
    sessions := session :: w.sessions
    throttle := Throttle.cleared
    attempts := .succeeded :: w.attempts
    log := .created session verified w.passwordHash :: w.log }

/-- The ids and the token hashes of the table are unique. -/
def tryInsert (w : World) (session : Session) (verified : String) (outcome : Outcome) :
    Except AuthError Unit × World :=
  if w.sessions.any fun s => s.id = session.id ∨ s.tokenHash = session.tokenHash then
    (.error .database, w)
  else w.write outcome (w.insertSession session verified)

def act (w : World) (i : Nat) : (e : Call) → Pick e → Option (Answer e × World)
  | .lockCredentialGuard, () => w.lock i
  | .unlockCredentialGuard, () => some ((), w.leave i)
  | .now, (elapsed : Nat) =>
    some (w.clock + elapsed, { w with clock := w.clock + elapsed })
  | .hasAdmin, (works : Bool) =>
    some (read works w.passwordHash.isSome, { w with log := .began i w.live :: w.log })
  | .blockedUntil, (works : Bool) => some (read works w.throttle.blockedUntil, w)
  | .auditCooldown, (works : Bool) => some (read works (), w)
  | .passwordHash, (works : Bool) => some (read works w.passwordHash, w)
  | .verify _ _ _, .error err => some (.error err, w)
  | .verify now _ _, .ok valid =>
    some (.ok valid,
      { w with attempts := .verified now valid (w.throttle.blockedAt now) :: w.attempts })
  | .recordCredentialFailure now, (outcome : Outcome) =>
    some (w.write outcome { w with
      throttle := w.throttle.fail now
      attempts := .recorded now (!w.throttle.withinWindow now) :: w.attempts })
  | .generateToken, none => some (.error .secret, w)
  | .generateToken, some token => some (.ok token, w)
  | .newId, (id : Uuid) => w.draw id
  | .insertSession session verified, (outcome : Outcome) =>
    some (w.tryInsert session verified outcome)
  | .hash _, hashed => some (hashed, w)
  | .changePassword passwordHash, (outcome : Outcome) =>
    some (w.write outcome { w with
      passwordHash := some passwordHash
      sessions := []
      throttle := Throttle.cleared
      attempts := .succeeded :: w.attempts
      log := .passwordChanged passwordHash :: w.log })
  | .selectSession tokenHash, (works : Bool) =>
    some (read works (w.sessions.find? (·.tokenHash = tokenHash)), w)
  | .deleteExpired id, (outcome : Outcome) =>
    some (w.write outcome { w with
      sessions := w.sessions.filter (·.id ≠ id)
      log := .expired id :: w.log })
  | .admits id now, () => some ((), { w with log := .admitted i id now :: w.log })
  | .accept id now, () => some ((), { w with log := .accepted i id now :: w.log })
  | .refresh id lastSeenAt idleExpiresAt, (outcome : Outcome) =>
    some (w.write outcome { w with
      sessions := w.sessions.map fun s =>
        if s.id = id then { s with lastSeenAt, idleExpiresAt } else s })
  | .deleteSession tokenHash, (outcome : Outcome) =>
    some (w.write outcome { w with
      sessions := w.sessions.filter (·.tokenHash ≠ tokenHash)
      log := .loggedOut tokenHash :: w.log })
  | .deleteSessions, (outcome : Outcome) =>
    some (w.write outcome { w with sessions := [], log := .revoked :: w.log })

/-- The tables outlive the process, the guard does not. -/
def reboot (w : World) : World := { w with guard := none }

section Acts

variable {w w' : World}

theorem lock_eq {i : Nat} {r : Unit} (h : w.lock i = some (r, w')) :
    w.guard = none ∧ w' = { w with guard := some i } := by
  unfold lock at h
  split at h
  next hfree => exact ⟨hfree, (Prod.mk.inj (Option.some.inj h)).2.symm⟩
  · cases h

theorem draw_eq {id r : Uuid} (h : w.draw id = some (r, w')) :
    r ∉ w.drawn ∧ w' = { w with drawn := r :: w.drawn } := by
  unfold draw at h
  split at h
  · cases h
  next hfresh =>
    cases h
    exact ⟨hfresh, rfl⟩

variable {r : Except AuthError Unit}

theorem write_applied {changed : World} {outcome : Outcome}
    (h : w.write outcome changed = (r, w')) : w' = w ∨ w' = changed ∧ outcome.applied = true := by
  have hw : (if outcome.applied then changed else w) = w' := (Prod.mk.inj h).2
  split at hw
  next happlied => exact .inr ⟨hw.symm, happlied⟩
  · exact .inl hw.symm

theorem write_eq {changed : World} {outcome : Outcome}
    (h : w.write outcome changed = (r, w')) : w' = w ∨ w' = changed :=
  (write_applied h).imp_right And.left

theorem tryInsert_eq {session : Session} {verified : String} {outcome : Outcome}
    (h : w.tryInsert session verified outcome = (r, w')) :
    w' = w ∨ w' = w.insertSession session verified ∧
      ∀ s ∈ w.sessions, s.id ≠ session.id ∧ s.tokenHash ≠ session.tokenHash := by
  unfold tryInsert at h
  split at h
  · exact .inl (Prod.mk.inj h).2.symm
  next hnew =>
    rcases write_eq h with hw | hw
    · exact .inl hw
    · exact .inr ⟨hw, by simpa using hnew⟩

end Acts

end World

/-- The handlers over the shared tables. -/
abbrev interface : Shared Call Answer World := ⟨Pick, World.act, World.leave, World.reboot⟩

end SoloDock.Auth
