import SoloDock.Lib.History
import SoloDock.Webhook.Protocol

/-!
# Receiving webhooks

`receive` of `webhook/ingress.rs` in its two halves: a request is authenticated
against the current secret (`authenticate`), and some time later, under the catalog
lock, it is checked against the secret again and durably accepted (`acceptWebhook` of
`registry/poll_state.rs`, one transaction). In between other requests are served and
the secret may be configured, rotated or revoked.

A nonce is remembered in `webhook_replays` until ten minutes after its acceptance. Each
later acceptance deletes the rows whose stored expiry is smaller, as text, than its own
time. `accepted_once` says when that is enough: no nonce is accepted twice under one
secret as long as none is presented after its row has expired in that sense.
-/

namespace SoloDock.Webhook

open Lib
open Instant (minutes)

/-! ## The tables -/

/-- A row of `webhook_replays`. -/
structure ReplayRow where
  appId : Uuid
  secretRevision : Uuid
  nonceSha256 : Bytes
  receivedAt : String
  expiresAt : String
  requestId : Uuid
deriving DecidableEq

/-- A row of `poll_states`. -/
structure PollState where
  generation : String
  enabled : Bool
  consecutiveTransientFailures : Nat
  nextCheckNotBefore : Option String
  lastCheckedAt : Option String
  lastSuccessAt : Option String
  lastSourceDescriptorDigest : Option String
  lastEtag : Option String
  lastManifestDigest : Option String
  lastPlatform : Option String
  lastOutcome : String
  lastErrorClass : Option String
  lastErrorCode : Option String
  suppressedTargetKey : Option String
  suppressedDeploymentId : Option Uuid
  webhookSequence : Nat
  webhookProcessedSequence : Nat
  lastWebhookReceivedAt : Option String
  lastWakeSource : Option String
  updatedAt : String
deriving DecidableEq

/-- A row of `audit_events` written for a webhook. -/
structure AuditEvent where
  requestId : Uuid
  action : String
  appId : Uuid
  createdAt : String
deriving DecidableEq

/-- The tables a webhook reads and writes. -/
structure Tables where
  replays : List ReplayRow
  pollStates : Uuid → Option PollState
  audit : List AuditEvent

inductive WebhookAccept where
  | accepted | coalesced | ignoredDisabled | replay
deriving DecidableEq, Repr

/-! ## Acceptance -/

/-- The primary key of a replay row. -/
def ReplayRow.key (row : ReplayRow) : Uuid × Uuid × Bytes :=
  (row.appId, row.secretRevision, row.nonceSha256)

/-- One step of `ORDER BY expires_at`. -/
def insertByExpiry (row : ReplayRow) : List ReplayRow → List ReplayRow
  | [] => [row]
  | other :: rest =>
    if row.expiresAt ≤ other.expiresAt then row :: other :: rest
    else other :: insertByExpiry row rest

/-- The rows the purge selects: at most 100 of those that expired, the oldest first. -/
def expiredRows (now : String) (rows : List ReplayRow) : List ReplayRow :=
  ((rows.filter fun row => row.expiresAt < now).foldr insertByExpiry []).take 100

/-- The purge that starts every acceptance. -/
def purge (now : String) (rows : List ReplayRow) : List ReplayRow :=
  rows.filter fun row => !(expiredRows now rows).contains row

/-- A wake of an app without a row. -/
def newPollState (generation now : String) : PollState where
  generation := generation
  enabled := true
  consecutiveTransientFailures := 0
  nextCheckNotBefore := none
  lastCheckedAt := none
  lastSuccessAt := none
  lastSourceDescriptorDigest := none
  lastEtag := none
  lastManifestDigest := none
  lastPlatform := none
  lastOutcome := "scheduled"
  lastErrorClass := none
  lastErrorCode := none
  suppressedTargetKey := none
  suppressedDeploymentId := none
  webhookSequence := 1
  webhookProcessedSequence := 0
  lastWebhookReceivedAt := some now
  lastWakeSource := some "webhook"
  updatedAt := now

/-- The upsert of a wake: a row of another generation starts over, except for its wake
sequences. -/
def wake (generation now : String) : Option PollState → PollState
  | none => newPollState generation now
  | some row =>
    let kept := if row.generation = generation then row
      else { newPollState generation now with
        webhookSequence := row.webhookSequence
        webhookProcessedSequence := row.webhookProcessedSequence }
    { kept with
      generation
      enabled := true
      webhookSequence := row.webhookSequence + 1
      lastWebhookReceivedAt := some now
      lastWakeSource := some "webhook"
      updatedAt := now }

/-- The audit action of an acceptance. -/
def WebhookAccept.auditAction : WebhookAccept → String
  | .accepted => "registry_recheck_requested"
  | .coalesced => "registry_recheck_coalesced"
  | .ignoredDisabled => "registry_recheck_ignored_disabled"
  | .replay => ""

/-- `accept_webhook`: purge, claim the nonce, wake the app, audit, in one transaction; a
replay rolls all of it back. `none` is a failed transaction. -/
def acceptWebhook (tables : Tables) (now : Instant) (appId secretRevision : Uuid)
    (nonceSha256 : Bytes) (requestId : Uuid) (generation : String) (enabled : Bool) :
    Option (WebhookAccept × Tables) := do
  let nowText ← rfc3339 now
  let expiresAt ← rfc3339 (now + minutes 10)
  let kept := purge nowText tables.replays
  let row : ReplayRow :=
    { appId, secretRevision, nonceSha256, receivedAt := nowText, expiresAt, requestId }
  if kept.any fun other => other.key = row.key then
    return (.replay, tables)
  else
    let action : WebhookAccept :=
      if enabled then
        match tables.pollStates appId with
        | some previous =>
          if previous.webhookSequence > previous.webhookProcessedSequence then .coalesced
          else .accepted
        | none => .accepted
      else .ignoredDisabled
    let pollStates :=
      if enabled then
        fun id => if id = appId then some (wake generation nowText (tables.pollStates appId))
          else tables.pollStates id
      else tables.pollStates
    return (action,
      { replays := kept ++ [row]
        pollStates
        audit := tables.audit ++
          [{ requestId, action := action.auditAction, appId, createdAt := nowText }] })

/-! ## The two halves of `receive` -/

/-- The current secret of an app, as `load_current` returns it. -/
structure LoadedWebhook where
  secret : String
  secretRevision : Uuid
deriving DecidableEq

/-- A request to `/hooks/v1/apps/<app>/registry`. A header is the list of its values, `none`
for one that is not visible ASCII. -/
structure Request where
  appText : String
  contentLength : Option Nat
  contentType : List (Option String)
  timestamp : List (Option String)
  nonce : List (Option String)
  signature : List (Option String)
  body : Bytes

/-- What the process knows when a request arrives: a free permit, the rate limiter's
verdict, the app in the catalog with its draft revision, and whether the mutation and
deployment services run. -/
structure Admission where
  permit : Bool
  admitted : Bool
  catalog : Option (Option Uuid)
  services : Bool

/-- A response: its status and code. -/
structure Response where
  status : Nat
  code : String
deriving DecidableEq, Repr

def unauthorized : Response := ⟨401, "WEBHOOK_UNAUTHORIZED"⟩

def payloadInvalid : Response := ⟨422, "WEBHOOK_PAYLOAD_INVALID"⟩

def rateLimited : Response := ⟨429, "WEBHOOK_RATE_LIMITED"⟩

/-- An authenticated request waiting for the catalog lock. -/
structure Authenticated where
  appId : Uuid
  headers : VerifiedHeaders
  loaded : LoadedWebhook

/-- `one_header`: the value of a header that is there exactly once. -/
def oneHeader : List (Option String) → Option String
  | [some value] => some value
  | _ => none

variable (crypto : Crypto)

def requiredHeaders (request : Request) : Option VerifiedHeaders := do
  let timestamp ← oneHeader request.timestamp
  let nonce ← oneHeader request.nonce
  let signature ← oneHeader request.signature
  (parseHeaders crypto timestamp nonce signature).toOption

/-- A check that answers the request when it fails. -/
def require (c : Bool) (response : Response) : Except Response Unit :=
  if c then .ok () else .error response

/-- The value that is there, or the answer when it is not. -/
def requireSome (o : Option α) (response : Response) : Except Response α :=
  match o with
  | some a => .ok a
  | none => .error response

variable {response : Response} {a : α}

theorem require_bind {c : Bool} {f : Unit → Except Response α} :
    (require c response >>= f) = .ok a ↔ c = true ∧ f () = .ok a := by
  cases c with
  | true => exact ⟨fun h => ⟨rfl, h⟩, fun h => h.2⟩
  | false => exact ⟨nofun, fun h => nomatch h.1⟩

theorem requireSome_bind {o : Option β} {f : β → Except Response α} :
    (requireSome o response >>= f) = .ok a ↔ ∃ b, o = some b ∧ f b = .ok a := by
  cases o with
  | some b => exact ⟨fun h => ⟨b, rfl, h⟩, fun ⟨_, hb, h⟩ => Option.some.inj hb ▸ h⟩
  | none => exact ⟨nofun, fun ⟨_, hb, _⟩ => nomatch hb⟩

/-- `receive` up to the catalog lock. -/
def authenticate (current : Uuid → Option LoadedWebhook) (request : Request) (at_ : Admission)
    (now : Instant) : Except Response Authenticated := do
  require (request.contentLength.all (· ≤ maxBodyBytes)) payloadInvalid
  require at_.permit rateLimited
  require (request.body.length ≤ maxBodyBytes) payloadInvalid
  match canonicalUuid request.appText with
  | none =>
    require at_.admitted rateLimited
    .error unauthorized
  | some appId =>
    require at_.admitted rateLimited
    require (at_.catalog ≠ some none) ⟨409, "APP_UNCONFIGURED"⟩
    require (oneHeader request.contentType = some "application/json") payloadInvalid
    let headers ← requireSome (requiredHeaders crypto request) unauthorized
    let loaded ← requireSome (current appId) unauthorized
    requireSome (verify crypto appId request.body headers loaded.secret now).toOption unauthorized
    require (crypto.isPayload request.body) payloadInvalid
    require at_.services ⟨503, "WEBHOOK_UNAVAILABLE"⟩
    return { appId, headers, loaded }

/-- What `receive` reads of the app under the catalog lock: whether it is configured and
deploys automatically, and its poll generation. -/
structure AppFacts where
  configured : Bool
  autoDeployEnabled : Bool
  generation : Option String

/-- `receive` under the catalog lock: the secret is still the one the request was signed
with, and the request is accepted. -/
def commit (current : Uuid → Option LoadedWebhook) (tables : Tables) (request : Authenticated)
    (facts : Option AppFacts) (requestId : Uuid) (now : Instant) :
    Except Response (WebhookAccept × Tables) := do
  let again ← requireSome (current request.appId) unauthorized
  require (again.secretRevision = request.loaded.secretRevision) unauthorized
  let facts ← requireSome facts unauthorized
  require facts.configured ⟨409, "APP_UNCONFIGURED"⟩
  let generation ← requireSome facts.generation ⟨503, "WEBHOOK_STORE_DEGRADED"⟩
  let (action, tables) ← requireSome
    (acceptWebhook tables now request.appId again.secretRevision request.headers.nonceSha256
      requestId generation facts.autoDeployEnabled) ⟨503, "WEBHOOK_STORE_DEGRADED"⟩
  require (action ≠ .replay) ⟨409, "WEBHOOK_REPLAYED"⟩
  return (action, tables)

/-! ## The system -/

/-- A durably accepted request. -/
structure Acceptance where
  appId : Uuid
  secretRevision : Uuid
  nonce : String
  now : Instant
deriving DecidableEq

/-- The current secrets, the tables, the requests waiting for the catalog lock, and the
account of what was accepted, the latest first. -/
structure Ingress where
  current : Uuid → Option LoadedWebhook
  tables : Tables
  waiting : List Authenticated
  log : List Acceptance

/-- What happens to it. -/
inductive Action where
  | arrive (request : Request) (admission : Admission) (now : Instant)
  | commit (index : Nat) (facts : Option AppFacts) (requestId : Uuid) (now : Instant)
  | setSecret (appId : Uuid) (loaded : Option LoadedWebhook)
  | retainApps (ids : List Uuid)
  | removeAppOperational (id : Uuid)
  | restart

/-- The replay rows and poll states of the apps that `keep` names. -/
def Tables.keepApps (tables : Tables) (keep : Uuid → Bool) : Tables :=
  { tables with
    replays := tables.replays.filter fun row => keep row.appId
    pollStates := fun id => if keep id then tables.pollStates id else none }

def step (s : Ingress) : Action → Ingress
  | .arrive request admission now =>
    match authenticate crypto s.current request admission now with
    | .ok authenticated => { s with waiting := s.waiting ++ [authenticated] }
    | .error _ => s
  | .commit index facts requestId now =>
    match s.waiting[index]? with
    | none => s
    | some request =>
      match commit s.current s.tables request facts requestId now with
      | .ok (_, tables) =>
        { s with
          tables
          waiting := s.waiting.eraseIdx index
          log := ⟨request.appId, request.loaded.secretRevision, request.headers.nonce, now⟩
            :: s.log }
      | .error _ => { s with waiting := s.waiting.eraseIdx index }
  | .setSecret appId loaded =>
    { s with current := fun id => if id = appId then loaded else s.current id }
  | .retainApps ids => { s with tables := s.tables.keepApps ids.contains }
  | .removeAppOperational id => { s with tables := s.tables.keepApps (· ≠ id) }
  | .restart => { s with waiting := [] }

/-- The process has just started and accepted nothing yet. -/
def started (current : Uuid → Option LoadedWebhook) (tables : Tables) : Ingress :=
  { current, tables, waiting := [], log := [] }

/-! ## What keeps a nonce from being accepted twice -/

/-- A nonce accepted at `accepted` counts as expired at `now`: the comparison of the stored
texts that `accept_webhook` makes. -/
def Expired (accepted now : Instant) : Prop :=
  match rfc3339 (accepted + minutes 10), rfc3339 now with
  | some expiresAt, some nowText => expiresAt < nowText
  | _, _ => False

instance (accepted now : Instant) : Decidable (Expired accepted now) := by
  unfold Expired
  split <;> infer_instance

/-- The nonce of `request` is not presented at `now` after it has expired: if it was accepted
before, neither the present time nor that of any acceptance since counts as past its
expiry. -/
def Unexpired (log : List Acceptance) (request : Authenticated) (now : Instant) : Prop :=
  ∀ newer e older, log = newer ++ e :: older →
    (e.appId, e.secretRevision, e.nonce) =
      (request.appId, request.loaded.secretRevision, request.headers.nonce) →
    ∀ t ∈ now :: newer.map (·.now), ¬Expired e.now t

/-- A step that leaves the app registered and presents no expired nonce to it. -/
def Timely (app : Uuid) (s : Ingress) : Action → Prop
  | .commit index _ _ now =>
    ∀ request, s.waiting[index]? = some request → request.appId = app →
      Unexpired s.log request now
  | .retainApps ids => app ∈ ids
  | .removeAppOperational id => id ≠ app
  | .arrive .. | .setSecret .. | .restart => True

variable {rows : List ReplayRow} {now : Instant} {row x : ReplayRow} {tables tables' : Tables}
  {action : WebhookAccept} {current : Uuid → Option LoadedWebhook}

theorem mem_insertByExpiry (h : x ∈ insertByExpiry row rows) : x = row ∨ x ∈ rows := by
  induction rows with
  | nil => exact .inl (List.mem_singleton.mp h)
  | cons other rest ih =>
    unfold insertByExpiry at h
    split at h
    · exact List.mem_cons.mp h
    · rcases List.mem_cons.mp h with rfl | h
      · exact .inr List.mem_cons_self
      · rcases ih h with h | h
        · exact .inl h
        · exact .inr (List.mem_cons_of_mem _ h)

theorem mem_foldr_insertByExpiry (h : x ∈ rows.foldr insertByExpiry []) : x ∈ rows := by
  induction rows with
  | nil => exact h
  | cons row rest ih =>
    rcases mem_insertByExpiry h with rfl | h
    · exact List.mem_cons_self
    · exact List.mem_cons_of_mem _ (ih h)

theorem mem_purge {now : String} (h : row ∈ rows)
    (hlive : ¬row.expiresAt < now) : row ∈ purge now rows := by
  refine List.mem_filter.mpr ⟨h, ?_⟩
  rw [Bool.not_eq_true', List.contains_eq_mem, decide_eq_false_iff_not]
  intro hexp
  have hmem := mem_foldr_insertByExpiry (List.mem_of_mem_take hexp)
  exact hlive (of_decide_eq_true (List.mem_filter.mp hmem).2)

theorem acceptWebhook_spec {appId revision requestId : Uuid} {nonce : Bytes} {generation : String}
    {enabled : Bool}
    (h : acceptWebhook tables now appId revision nonce requestId generation enabled =
      some (action, tables')) (hne : action ≠ .replay) : ∃ nowText row, rfc3339 now = some nowText ∧
      rfc3339 (now + minutes 10) = some row.expiresAt ∧ row.key = (appId, revision, nonce) ∧
      (∀ other ∈ purge nowText tables.replays, other.key ≠ row.key) ∧
      tables'.replays = purge nowText tables.replays ++ [row] := by
  unfold acceptWebhook at h
  simp only [Option.bind_eq_bind, Option.bind_eq_some_iff] at h
  obtain ⟨nowText, hnow, expiresAt, hexp, h⟩ := h
  split at h
  · simp only [Option.pure_def, Option.some.injEq, Prod.mk.injEq] at h
    exact absurd h.1.symm hne
  · rename_i hnone
    simp only [Option.pure_def, Option.some.injEq, Prod.mk.injEq] at h
    refine ⟨nowText, ⟨appId, revision, nonce, nowText, expiresAt, requestId⟩, hnow, hexp, rfl, ?_,
      by rw [← h.2]⟩
    intro other hother hkey
    exact hnone (List.any_eq_true.mpr ⟨other, hother, decide_eq_true hkey⟩)

theorem commit_spec {request : Authenticated} {facts : Option AppFacts} {requestId : Uuid}
    (h : commit current tables request facts requestId now = .ok (action, tables')) :
    ∃ nowText row, rfc3339 now = some nowText ∧ rfc3339 (now + minutes 10) = some row.expiresAt ∧
      row.key = (request.appId, request.loaded.secretRevision, request.headers.nonceSha256) ∧
      (∀ other ∈ purge nowText tables.replays, other.key ≠ row.key) ∧
      tables'.replays = purge nowText tables.replays ++ [row] := by
  unfold commit at h
  simp only [requireSome_bind, require_bind] at h
  obtain ⟨again, _, hsame, _, _, _, generation, _, ⟨action', tables''⟩, haccept, hne, h⟩ := h
  cases h
  have := acceptWebhook_spec haccept (of_decide_eq_true hne)
  rw [of_decide_eq_true hsame] at this
  exact this

theorem parseHeaders_hash {timestamp nonce signature : String} {headers : VerifiedHeaders}
    (h : parseHeaders crypto timestamp nonce signature = .ok headers) :
    headers.nonceSha256 = crypto.sha256 (textBytes headers.nonce) := by
  unfold parseHeaders at h
  cases ht : parseTimestamp timestamp with
  | error e => rw [ht] at h; cases h
  | ok t =>
    cases hn : checkNonce nonce with
    | error e => rw [ht, hn] at h; cases h
    | ok u =>
      cases hs : parseSignature signature with
      | error e => rw [ht, hn, hs] at h; cases h
      | ok v =>
        rw [ht, hn, hs] at h
        cases h
        rfl

theorem authenticate_hash {request : Request} {admission : Admission}
    {authenticated : Authenticated}
    (h : authenticate crypto current request admission now = .ok authenticated) :
    authenticated.headers.nonceSha256 = crypto.sha256 (textBytes authenticated.headers.nonce) := by
  unfold authenticate at h
  simp only [require_bind] at h
  obtain ⟨_, _, _, h⟩ := h
  split at h
  · rw [require_bind] at h
    exact nomatch h.2
  · simp only [require_bind, requireSome_bind] at h
    obtain ⟨_, _, _, headers, hheaders, _, _, _, _, _, _, h⟩ := h
    cases h
    unfold requiredHeaders at hheaders
    simp only [Option.bind_eq_bind, Option.bind_eq_some_iff] at hheaders
    obtain ⟨timestamp, _, nonce, _, signature, _, hparse⟩ := hheaders
    cases hp : parseHeaders crypto timestamp nonce signature with
    | error e => rw [hp] at hparse; cases hparse
    | ok parsed =>
      rw [hp] at hparse
      cases hparse
      exact parseHeaders_hash crypto hp

/-! ## The invariant -/

/-- The key an acceptance was claimed under. -/
def Acceptance.rowKey (e : Acceptance) : Uuid × Uuid × Bytes :=
  (e.appId, e.secretRevision, crypto.sha256 (textBytes e.nonce))

/-- What a run keeps for a registered app. -/
structure Inv (app : Uuid) (s : Ingress) : Prop where
  hashed : ∀ request ∈ s.waiting,
    request.headers.nonceSha256 = crypto.sha256 (textBytes request.headers.nonce)
  -- an acceptance that no later one counts as expired still has its row
  kept : ∀ newer e older, s.log = newer ++ e :: older → e.appId = app →
    (∀ t ∈ newer.map (·.now), ¬Expired e.now t) →
    ∃ row ∈ s.tables.replays, row.key = e.rowKey crypto ∧
      rfc3339 (e.now + minutes 10) = some row.expiresAt
  once : ((s.log.filter (·.appId = app)).map fun e => (e.secretRevision, e.nonce)).Nodup

variable {crypto} {app : Uuid} {s : Ingress}

theorem Inv.frame {s' : Ingress} (h : Inv crypto app s) (hwaiting : ∀ request ∈ s'.waiting,
      request.headers.nonceSha256 = crypto.sha256 (textBytes request.headers.nonce))
    (hlog : s'.log = s.log)
    (hrows : ∀ row ∈ s.tables.replays, row.appId = app → row ∈ s'.tables.replays) :
    Inv crypto app s' := by
  refine ⟨hwaiting, fun newer e older hsplit happ hlive => ?_, by rw [hlog]; exact h.once⟩
  obtain ⟨row, hrow, hkey, hexp⟩ := h.kept newer e older (hlog ▸ hsplit) happ hlive
  have hrowApp : row.appId = app := by
    have := congrArg Prod.fst hkey
    exact this.trans happ
  exact ⟨row, hrows row hrow hrowApp, hkey, hexp⟩

/-- A row that an acceptance has left behind is still there after the purge of a commit at
`now`, unless `now` counts as past its expiry. -/
theorem Inv.row_after_purge (h : Inv crypto app s)
    {newer older : List Acceptance} {e : Acceptance} (hsplit : s.log = newer ++ e :: older)
    (happ : e.appId = app) {now : Instant} {nowText : String} (hnow : rfc3339 now = some nowText)
    (hlive : ∀ t ∈ now :: newer.map (·.now), ¬Expired e.now t) :
    ∃ row ∈ purge nowText s.tables.replays, row.key = e.rowKey crypto ∧
      rfc3339 (e.now + minutes 10) = some row.expiresAt := by
  obtain ⟨row, hrow, hkey, hexp⟩ :=
    h.kept newer e older hsplit happ fun t ht => hlive t (List.mem_cons_of_mem _ ht)
  refine ⟨row, mem_purge hrow fun hlt => ?_, hkey, hexp⟩
  refine hlive now List.mem_cons_self ?_
  rw [Expired, hexp, hnow]
  exact hlt

theorem Inv.accept (h : Inv crypto app s) {request : Authenticated}
    {waiting : List Authenticated} {tables : Tables} {facts : Option AppFacts} {requestId : Uuid}
    {now : Instant} {action : WebhookAccept} (hrequest : request ∈ s.waiting)
    (hwaiting : ∀ r ∈ waiting, r ∈ s.waiting)
    (htimely : request.appId = app → Unexpired s.log request now)
    (hcommit : commit s.current s.tables request facts requestId now = .ok (action, tables)) :
    Inv crypto app { s with
        tables
        waiting
        log := ⟨request.appId, request.loaded.secretRevision, request.headers.nonce, now⟩
          :: s.log } := by
  obtain ⟨nowText, row, hnow, hexpires, hkey, hnew, hrows⟩ := commit_spec hcommit
  rw [h.hashed request hrequest] at hkey
  refine ⟨fun r hr => h.hashed r (hwaiting r hr), ?_, ?_⟩
  · intro newer e older hsplit happ hlive
    cases newer with
    | nil =>
      cases hsplit
      exact ⟨row, by simp [hrows], hkey, hexpires⟩
    | cons e0 newer =>
      obtain ⟨rfl, hrest⟩ := List.cons.inj hsplit
      obtain ⟨old, hold, hkey', hexp'⟩ := h.row_after_purge hrest happ hnow hlive
      exact ⟨old, by simp [hrows, hold], hkey', hexp'⟩
  · by_cases happ : request.appId = app
    · show ((List.filter _ (_ :: s.log)).map _).Nodup
      rw [List.filter_cons_of_pos (by simp [happ]), List.map_cons, List.nodup_cons]
      refine ⟨fun hmem => ?_, h.once⟩
      -- the same nonce was accepted before: its row is still there, so this was a replay
      obtain ⟨e, he, heq⟩ := List.mem_map.mp hmem
      obtain ⟨helog, heapp⟩ := List.mem_filter.mp he
      have heapp : e.appId = app := of_decide_eq_true heapp
      obtain ⟨hrev, hnonce⟩ := Prod.mk.inj heq
      obtain ⟨newer, older, hsplit⟩ := List.append_of_mem helog
      have hlive := htimely happ newer e older hsplit (by rw [heapp, hrev, hnonce, happ])
      obtain ⟨old, hold, hkey', _⟩ := h.row_after_purge hsplit heapp hnow hlive
      refine hnew old hold ?_
      rw [hkey', hkey, Acceptance.rowKey, heapp, hrev, hnonce, happ]
    · show ((List.filter _ (_ :: s.log)).map _).Nodup
      rw [List.filter_cons_of_neg (by simp [happ])]
      exact h.once

/-- Every timely step keeps the invariant. -/
theorem Inv.step {app : Uuid} {s : Ingress} {a : Action} (ha : Timely app s a)
    (h : Inv crypto app s) : Inv crypto app (step crypto s a) := by
  cases a with
  | arrive request admission now =>
    unfold Webhook.step
    dsimp only
    split
    next authenticated hauth =>
      refine h.frame (fun r hr => ?_) rfl fun row hrow _ => hrow
      rcases List.mem_append.mp hr with hr | hr
      · exact h.hashed r hr
      · rw [List.mem_singleton.mp hr]
        exact authenticate_hash crypto hauth
    · exact h
  | commit index facts requestId now =>
    have herase : ∀ r ∈ s.waiting.eraseIdx index, r ∈ s.waiting :=
      fun r hr => List.mem_of_mem_eraseIdx hr
    unfold Webhook.step
    dsimp only
    split
    · exact h
    next request hrequest =>
      split
      next action tables hcommit =>
        exact h.accept (List.mem_of_getElem? hrequest) herase (ha request hrequest) hcommit
      · exact h.frame (fun r hr => h.hashed r (herase r hr)) rfl fun row hrow _ => hrow
  | setSecret appId loaded => exact h.frame h.hashed rfl fun row hrow _ => hrow
  | retainApps ids =>
    refine h.frame h.hashed rfl fun row hrow happ => List.mem_filter.mpr ⟨hrow, ?_⟩
    rw [happ]
    exact List.contains_iff_mem.mpr ha
  | removeAppOperational id =>
    refine h.frame h.hashed rfl fun row hrow happ => List.mem_filter.mpr ⟨hrow, ?_⟩
    rw [happ]
    exact decide_eq_true (Ne.symm ha)
  | restart => exact h.frame nofun rfl fun row hrow _ => hrow

/-- In every run that leaves the app registered and presents no expired nonce to it, no
nonce is accepted twice under one secret revision of the app. -/
theorem accepted_once (crypto : Crypto) (app : Uuid) (current : Uuid → Option LoadedWebhook)
    (tables : Tables) (actions : List Action)
    (h : Along (step crypto) (Timely app) (started current tables) actions) :
    (((play (step crypto) (started current tables) actions).log.filter (·.appId = app)).map
      fun e => (e.secretRevision, e.nonce)).Nodup := by
  have hstart : Inv crypto app (started current tables) := by
    refine ⟨nofun, fun newer e older hsplit => ?_, List.nodup_nil⟩
    cases newer <;> cases hsplit
  exact (h.invariant (fun s a ha hs => hs.step ha) hstart).once

/-! ## A request that is accepted twice -/

/-- The payload of a push. -/
def pushPayload : Bytes := textBytes "\x7b\"event\":\"registry.push\"\x7d"

/-- The hashes of the program; of the payloads only this one is read. -/
def pushCrypto : Crypto := .sha2 (· == pushPayload)

def secretOfAppOne : LoadedWebhook where
  secret := "AAECAwQFBgcICQoLDA0ODxAREhMUFRYXGBkaGxwdHh8"
  secretRevision := 2

/-- A request of app 1, signed for second 300. -/
def signedRequest : Request where
  appText := uuidText 1
  contentLength := none
  contentType := [some "application/json"]
  timestamp := [some "300"]
  nonce := [some "AAECAwQFBgcICQoLDA0ODw"]
  signature := [some "v1=37fdb4b4c06603d76152513f3a1d60ef7e2224a5d5ca926990a6d45d2e91246f"]
  body := pushPayload

/-- The request arrives and is committed at `now`. -/
def deliver (now : Instant) : List Action :=
  [.arrive signedRequest ⟨true, true, some (some 5), true⟩ now,
    .commit 0 (some ⟨true, true, some "g"⟩) 7 now]

/-- The acceptances of a run from empty tables. -/
def acceptances (actions : List Action) : List Acceptance :=
  (play (step pushCrypto)
    (started (fun id => if id = 1 then some secretOfAppOne else none) ⟨[], fun _ => none, []⟩)
    actions).log

/-- Half a second past zero it is accepted; its row expires at 600.5 s, so at 600.9 s, when
its timestamp is still within 300 s of the whole second, it is accepted again. -/
theorem request_accepted_twice :
    acceptances (deliver 500000000 ++ deliver 600900000000) =
      [⟨1, 2, "AAECAwQFBgcICQoLDA0ODw", 600900000000⟩,
        ⟨1, 2, "AAECAwQFBgcICQoLDA0ODw", 500000000⟩] := by
  decide +kernel

theorem step_arrive_log (s : Ingress) (request : Request) (admission : Admission)
    (now : Instant) : (step crypto s (.arrive request admission now)).log = s.log := by
  unfold step
  dsimp only
  split <;> rfl

/-- Delivered again a second later it is recognised. -/
theorem request_recognised :
    acceptances (deliver 500000000 ++ deliver 1500000000) =
      [⟨1, 2, "AAECAwQFBgcICQoLDA0ODw", 500000000⟩] ∧
    (((acceptances (deliver 500000000 ++ deliver 1500000000)).filter (·.appId = 1)).map
      fun e => (e.secretRevision, e.nonce)).Nodup := by
  refine ⟨by decide +kernel, accepted_once pushCrypto 1 _ _ _ ⟨trivial, ?_, trivial, ?_, trivial⟩⟩
  · rintro request - - newer e older hsplit
    rw [step_arrive_log] at hsplit
    exact absurd hsplit.symm (List.append_ne_nil_of_right_ne_nil newer (List.cons_ne_nil e older))
  · rintro request - - newer e older hsplit -
    have hfirst : acceptances (deliver 500000000) =
        [⟨1, 2, "AAECAwQFBgcICQoLDA0ODw", 500000000⟩] := by decide +kernel
    rw [step_arrive_log] at hsplit
    simp only [acceptances, deliver, play] at hfirst
    have hlog := hfirst.symm.trans hsplit
    cases newer with
    | nil =>
      obtain ⟨rfl, _⟩ := List.cons.inj hlog
      intro t ht
      obtain rfl := List.mem_singleton.mp ht
      decide +kernel
    | cons _ newer =>
      have := congrArg List.length hlog
      simp at this

end SoloDock.Webhook
