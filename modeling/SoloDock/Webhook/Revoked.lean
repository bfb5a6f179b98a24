import SoloDock.Mutation.Rows
import SoloDock.Webhook.Store

/-!
# A revoked webhook secret

Is a secret that was revoked gone for good? `reinstated` says, of the account of a
history, that some secret became current through an operation claimed before a revocation
that had already taken that secret away.

The store lets an operation publish when it expects the metadata revision on disk, or
expects none and the webhook is not enabled. Every publication draws a new revision, so
what an operation claimed before a revocation expects can never match again
(`Core.outdated`); the only way back is to expect none, which a disabled webhook accepts.
That is `resurrects`: a configure claimed before the revocation, served after it, whose
mark is no longer the last one on disk. In histories without such a step no secret comes
back.
-/

namespace SoloDock.Webhook

open Lib Mutation Lib.World
open List (mem_cons mem_cons_of_mem)
open Webhooks (route secretOf writeMetadata)

namespace Event

def claims (operation : Uuid) : Event → Bool
  | claimed op _ => op == operation
  | _ => false

def enables (secret : Bytes) : Event → Bool
  | current s _ => s == secret
  | _ => false

end Event

/-- `secret` was current before the last revocation, and `operation` was claimed before
it. -/
def wasRevoked (secret : Bytes) (operation : Uuid) : List Event → Bool
  | [] => false
  | .revoked _ :: older =>
    older.any (Event.claims operation) && older.any (Event.enables secret)
  | _ :: older => wasRevoked secret operation older

/-- Some secret became current again although it had been revoked, through an operation
claimed before the revocation. -/
def reinstated : List Event → Bool
  | [] => false
  | .current secret operation :: older => wasRevoked secret operation older || reinstated older
  | _ :: older => reinstated older

/-- Serving this request now would bring a revoked secret back. -/
def resurrects (w : Webhooks) (a : Attempt) : Bool :=
  match a.query.request, w.metadata with
  | .configure none secret, some value =>
    !value.enabled && value.lastOperationId != a.operation &&
      match decodeSecret secret with
      | .ok decoded => wasRevoked decoded a.operation w.events
      | .error _ => false
  | _, _ => false

/-- The request was claimed before the last revocation. -/
def ClaimedBefore (operation : Uuid) (request : WebhookRequest) : List Event → Prop
  | [] => False
  | .revoked _ :: older => .claimed operation request ∈ older
  | _ :: older => ClaimedBefore operation request older

variable {request : WebhookRequest}

theorem ClaimedBefore.mem {operation : Uuid} :
    ∀ {events : List Event}, ClaimedBefore operation request events →
      .claimed operation request ∈ events
  | .revoked _ :: _, h => List.mem_cons_of_mem _ h
  | .claimed .. :: _, h | .current .. :: _, h => List.mem_cons_of_mem _ (ClaimedBefore.mem h)

/-- What was revoked since an operation's claim had been current, and the operation was
claimed before. -/
theorem of_wasRevoked {secret : Bytes} {operation : Uuid} :
    ∀ {events : List Event}, wasRevoked secret operation events = true →
      (∃ request, ClaimedBefore operation request events) ∧
        ∃ op, .current secret op ∈ events
  | .revoked _ :: older, h => by
    simp only [wasRevoked, Bool.and_eq_true, List.any_eq_true] at h
    obtain ⟨⟨e, he, hclaim⟩, e', he', hmakes⟩ := h
    refine ⟨?_, ?_⟩
    · cases e with
      | claimed op request =>
        obtain rfl : op = operation := by simpa [Event.claims] using hclaim
        exact ⟨request, he⟩
      | current | revoked => simp [Event.claims] at hclaim
    · cases e' with
      | current s op =>
        obtain rfl : s = secret := by simpa [Event.enables] using hmakes
        exact ⟨op, mem_cons_of_mem _ he'⟩
      | claimed | revoked => simp [Event.enables] at hmakes
  | .claimed .. :: older, h | .current .. :: older, h => by
    have h : wasRevoked secret operation older = true := h
    obtain ⟨⟨request, hr⟩, op, hop⟩ := of_wasRevoked h
    exact ⟨⟨request, hr⟩, op, mem_cons_of_mem _ hop⟩

theorem mem_of_secretOf {w : Webhooks} {revision : Uuid} {secret : Bytes}
    (h : w.secretOf revision = some secret) : (revision, secret) ∈ w.revisions := by
  obtain ⟨before, after, heq, -⟩ := List.lookup_eq_some_iff.mp h
  rw [heq]
  exact List.mem_append_right _ List.mem_cons_self

/-! ## The invariant -/

/-- What holds of the ledger, the files and the account in every state. -/
structure Core (w : Webhooks) : Prop where
  /-- Identifiers are drawn above everything a claim mentions. -/
  claims : ∀ op request, .claimed op request ∈ w.events →
    op < w.next ∧ ∀ x, request.expected = some x → x < w.next
  /-- An operation is claimed once. -/
  unique : ∀ op r s, .claimed op r ∈ w.events → .claimed op s ∈ w.events → r = s
  recorded : ∀ r ∈ w.ledger, .claimed r.operationId r.request ∈ w.events
  /-- A revision holds the secret of the operation it is named after. -/
  contents : ∀ op secret, (op, secret) ∈ w.revisions →
    ∃ expected text, .claimed op (.configure expected text) ∈ w.events ∧
      decodeSecret text = .ok secret
  never : w.metadata = none → ∀ secret op, .current secret op ∉ w.events
  /-- Only a configure enables the webhook. -/
  enabler : ∀ value, w.metadata = some value → value.enabled = true →
    ∃ expected text, .claimed value.lastOperationId (.configure expected text) ∈ w.events
  /-- Nothing claimed before a revocation expects what is enabled now. -/
  outdated : ∀ value, w.metadata = some value → value.enabled = true → ∀ op request,
    ClaimedBefore op request w.events → request.expected ≠ some value.metadataRevision
  lasting : reinstated w.events = false

theorem core_empty : Core .empty where
  claims _ _ h := by cases h
  unique _ _ _ h := by cases h
  recorded _ h := by cases h
  contents _ _ h := by cases h
  never _ _ _ h := by cases h
  enabler _ h := by cases h
  outdated _ h := by cases h
  lasting := rfl

variable {value : WebhookMetadata} {expected : Option Uuid} {text : String}

namespace Core

variable {w w' : Webhooks}

theorem frame (h : Core w) (hmetadata : w'.metadata = w.metadata)
    (hevents : w'.events = w.events) (hnext : w.next ≤ w'.next)
    (hrevisions : ∀ r ∈ w'.revisions, r ∈ w.revisions)
    (hledger : w'.ledger.Descends w.ledger) : Core w' where
  claims op request hmem := by
    obtain ⟨hop, hx⟩ := h.claims op request (hevents ▸ hmem)
    exact ⟨Nat.lt_of_lt_of_le hop hnext, fun x hexp => Nat.lt_of_lt_of_le (hx x hexp) hnext⟩
  unique op r s hr hs := h.unique op r s (hevents ▸ hr) (hevents ▸ hs)
  recorded r hr := by
    obtain ⟨s, hs, -, -, hop, hreq⟩ := hledger r hr
    rw [hevents, hop, hreq]
    exact h.recorded s hs
  contents op secret hs := by
    rw [hevents]
    exact h.contents op secret (hrevisions _ hs)
  never hnone := by
    rw [hevents]
    exact h.never (hmetadata ▸ hnone)
  enabler value hv hen := by
    rw [hevents]
    exact h.enabler value (hmetadata ▸ hv) hen
  outdated value hv hen := by
    rw [hevents]
    exact h.outdated value (hmetadata ▸ hv) hen
  lasting := by
    rw [hevents]
    exact h.lasting

theorem claim (h : Core w) {op next : Uuid}
    {ledger : Ledger String WebhookRequest Body} (hop : w.next ≤ op) (hnext : op < next)
    (hx : ∀ x, request.expected = some x → x < next)
    (hledger : ∀ r ∈ ledger, r ∈ w.ledger ∨ r.operationId = op ∧ r.request = request) :
    Core { w with ledger, next, events := .claimed op request :: w.events } where
  claims op' request' hmem := by
    rcases mem_cons.mp hmem with heq | hmem
    · cases heq
      exact ⟨hnext, hx⟩
    · obtain ⟨hlt, hx'⟩ := h.claims op' request' hmem
      have hle : w.next ≤ next := Nat.le_of_lt (Nat.lt_of_le_of_lt hop hnext)
      exact ⟨Nat.lt_of_lt_of_le hlt hle, fun x hexp => Nat.lt_of_lt_of_le (hx' x hexp) hle⟩
  unique op' r s hr hs := by
    have hold : ∀ t, .claimed op t ∉ w.events :=
      fun t ht => Nat.lt_irrefl _ (Nat.lt_of_le_of_lt hop (h.claims op t ht).1)
    rcases mem_cons.mp hr with hr | hr <;> rcases mem_cons.mp hs with hs | hs
    · cases hr
      cases hs
      rfl
    · cases hr
      exact absurd hs (hold s)
    · cases hs
      exact absurd hr (hold r)
    · exact h.unique op' r s hr hs
  recorded r hr := by
    rcases hledger r hr with hr | ⟨hop', hreq⟩
    · exact mem_cons_of_mem _ (h.recorded r hr)
    · rw [hop', hreq]
      exact List.mem_cons_self
  contents op' secret hs := by
    obtain ⟨expected, text, hmem, hdec⟩ := h.contents op' secret hs
    exact ⟨expected, text, mem_cons_of_mem _ hmem, hdec⟩
  never hnone secret op' hmem := by
    rcases mem_cons.mp hmem with heq | hmem
    · cases heq
    · exact h.never hnone secret op' hmem
  enabler value hv hen := by
    obtain ⟨expected, text, hmem⟩ := h.enabler value hv hen
    exact ⟨expected, text, mem_cons_of_mem _ hmem⟩
  outdated := h.outdated
  lasting := h.lasting

variable {op : Uuid}

theorem revoked (h : Core w)
    (hoff : ∃ value, w.metadata = some value ∧ value.enabled = false) :
    Core { w with events := .revoked op :: w.events } where
  claims op' request hmem := h.claims op' request ((mem_cons.mp hmem).resolve_left nofun)
  unique op' r s hr hs :=
    h.unique op' r s ((mem_cons.mp hr).resolve_left nofun) ((mem_cons.mp hs).resolve_left nofun)
  recorded r hr := mem_cons_of_mem _ (h.recorded r hr)
  contents op' secret hs := by
    obtain ⟨expected, text, hmem, hdec⟩ := h.contents op' secret hs
    exact ⟨expected, text, mem_cons_of_mem _ hmem, hdec⟩
  never hnone := by
    obtain ⟨value, hv, -⟩ := hoff
    rw [hv] at hnone
    cases hnone
  enabler value hv hen := by
    obtain ⟨_, hv', hdisabled⟩ := hoff
    cases hv'.symm.trans hv
    rw [hdisabled] at hen
    cases hen
  outdated value hv hen := by
    obtain ⟨_, hv', hdisabled⟩ := hoff
    cases hv'.symm.trans hv
    rw [hdisabled] at hen
    cases hen
  lasting := h.lasting

theorem disable (h : Core w) (hoff : value.enabled = false) : Core (w.writeMetadata value) := by
  have heq : w.writeMetadata value = { w with metadata := some value } := by
    simp [writeMetadata, hoff]
  rw [heq]
  exact {
    claims := h.claims
    unique := h.unique
    recorded := h.recorded
    contents := h.contents
    never := nofun
    enabler := fun v hv hen => by
      cases hv
      rw [hoff] at hen
      cases hen
    outdated := fun v hv hen => by
      cases hv
      rw [hoff] at hen
      cases hen
    lasting := h.lasting }

/-- An operation's revision becomes current under a metadata revision that no claim
mentions; its secret was not revoked since the claim. -/
theorem enable (h : Core w) {secret : Bytes} (hen : value.enabled = true)
    (hrev : value.secretRevision = some op) (hlast : value.lastOperationId = op)
    (hclaimed : .claimed op (.configure expected text) ∈ w.events)
    (hsecret : w.secretOf op = some secret)
    (hfresh : ∀ op' request, .claimed op' request ∈ w.events → ∀ x,
      request.expected = some x → x < value.metadataRevision)
    (hold : wasRevoked secret op w.events = false) : Core (w.writeMetadata value) := by
  have heq : w.writeMetadata value =
      { w with metadata := some value, events := .current secret op :: w.events } := by
    simp [writeMetadata, hen, hrev, hsecret]
  rw [heq]
  exact {
    claims := fun op' request hmem => h.claims op' request ((mem_cons.mp hmem).resolve_left nofun)
    unique := fun op' r s hr hs =>
      h.unique op' r s ((mem_cons.mp hr).resolve_left nofun) ((mem_cons.mp hs).resolve_left nofun)
    recorded := fun r hr => mem_cons_of_mem _ (h.recorded r hr)
    contents := fun op' secret' hs => by
      obtain ⟨expected', text', hmem, hdec⟩ := h.contents op' secret' hs
      exact ⟨expected', text', mem_cons_of_mem _ hmem, hdec⟩
    never := nofun
    enabler := fun v hv _ => by
      cases hv
      exact ⟨expected, text, mem_cons_of_mem _ (hlast ▸ hclaimed)⟩
    outdated := fun v hv _ op' request hbefore hexp => by
      cases hv
      have hbefore : ClaimedBefore op' request w.events := hbefore
      exact Nat.lt_irrefl _ (hfresh op' request hbefore.mem _ hexp)
    lasting := by
      show (wasRevoked secret op w.events || reinstated w.events) = false
      rw [hold, h.lasting]
      rfl }

theorem publish (h : Core w) {secret : Bytes}
    (hclaimed : .claimed op (.configure expected text) ∈ w.events)
    (hdecoded : decodeSecret text = .ok secret) :
    Core { w with revisions := (op, secret) :: w.revisions } :=
  { h with
    contents := fun op' secret' hs => by
      rcases mem_cons.mp hs with heq | hs
      · cases heq
        exact ⟨expected, text, hclaimed, hdecoded⟩
      · exact h.contents op' secret' hs }

end Core

/-! ## The programs -/

def Attempt.toClaim (site : Site) (a : Attempt) : Claim String WebhookRequest :=
  ⟨route site, a.query.key, a.operation, a.query.request⟩

/-- What a crash may leave: the invariant, and the operations `cs` under way. -/
def Safe (cs : List (Claim String WebhookRequest)) (w : Webhooks) : Prop :=
  Core w ∧ w.ledger.Exclusive cs

/-- `a` is being served beside the waiting operations `cs`, and not finished. -/
structure Open (site : Site) (a : Attempt) (cs : List (Claim String WebhookRequest))
    (w : Webhooks) :
    Prop where
  core : Core w
  exclusive : w.ledger.Exclusive cs
  apart : ∀ d ∈ cs, (a.toClaim site).Apart d
  holds : w.ledger.Holds (a.toClaim site)

section Programs

variable {site : Site} {a : Attempt} {cs : List (Claim String WebhookRequest)} {w w' : Webhooks}
  {ε α : Type}

theorem Open.safe (h : Open site a cs w) : Safe cs w := ⟨h.core, h.exclusive⟩

theorem Open.claimed (h : Open site a cs w) : .claimed a.operation a.query.request ∈ w.events := by
  obtain ⟨r, hr, hop, hreq, -⟩ := h.holds
  have hmem := h.core.recorded r (Ledger.find_some hr).1
  rw [hop, hreq] at hmem
  exact hmem

theorem Open.keep (h : Open site a cs w) (hcore : Core w') (hledger : w'.ledger = w.ledger) :
    Open site a cs w' :=
  ⟨hcore, hledger ▸ h.exclusive, h.apart, hledger ▸ h.holds⟩

/-- The weakest precondition of the handlers' programs. -/
abbrev Run (site : Site) (cs : List (Claim String WebhookRequest)) (p : Prog Call Answer ε α)
    (Q : Except ε α → Webhooks → Prop) (w : Webhooks) : Prop :=
  (webhookService site).world.wp (fun _ _ _ => True) (Safe cs) p Q w

/-- Nothing was written and nothing happened since `w₀`. -/
structure Same (w₀ w : Webhooks) : Prop where
  metadata : w.metadata = w₀.metadata
  events : w.events = w₀.events

theorem Core.draw (h : Core w) (skip : Nat) : Core { w with next := w.next + skip + 1 } :=
  h.frame rfl rfl (Nat.le_add_right w.next (skip + 1)) (fun _ hr => hr)
    fun r hr => ⟨r, hr, rfl, rfl, rfl, rfl⟩

theorem placeRevision_spec {decoded : Bytes}
    (h : Open site a cs w) (hreq : a.query.request = .configure expected text)
    (hdecoded : decodeSecret text = .ok decoded) :
    Run site cs (placeRevision a.operation text decoded) (fun r w' =>
      Open site a cs w' ∧ Same w w' ∧ (r = .ok () → w'.secretOf a.operation = some decoded)) w := by
  have hclaimed := hreq ▸ h.claimed
  refine wp_look rfl h.safe fun visible _ => ?_
  split
  next hvisible =>
    obtain ⟨secret, hsecret⟩ := Option.isSome_iff_exists.mp (Bool.and_eq_true_iff.mp hvisible).2
    -- The revision is the operation's own, so it holds the secret of this very request.
    have hown : secret = decoded := by
      obtain ⟨expected', text', hmem, hdec⟩ := h.core.contents _ _ (mem_of_secretOf hsecret)
      cases h.core.unique _ _ _ hclaimed hmem
      rw [hdecoded] at hdec
      exact (Except.ok.inj hdec).symm
    refine wp_look rfl h.safe fun readable _ => ?_
    refine wp_accept_bind (fun existing _ => ?_) fun _ _ => ⟨h, ⟨rfl, rfl⟩, nofun⟩
    exact (wp_ensure ..).mpr
      ⟨fun _ => ⟨h, ⟨rfl, rfl⟩, fun _ => hown ▸ hsecret⟩, fun _ => ⟨h, ⟨rfl, rfl⟩, nofun⟩⟩
  · refine wp_call fun o _ => ?_
    rw [wp_accept]
    cases hsecret : w.secretOf a.operation with
    | some secret =>
      simp only [webhookService, Webhooks.act, hsecret]
      exact ⟨h.safe, h, ⟨rfl, rfl⟩, nofun⟩
    | none =>
      simp only [webhookService, Webhooks.act, hsecret]
      have hpub := h.keep (h.core.publish hclaimed hdecoded) rfl
      have hself : secretOf
          { w with revisions := (a.operation, decoded) :: w.revisions } a.operation =
          some decoded := by
        simp [secretOf]
      cases o with
      | ok => exact ⟨hpub.safe, hpub, ⟨rfl, rfl⟩, fun _ => hself⟩
      | failed applied =>
        cases applied with
        | true => exact ⟨hpub.safe, hpub, ⟨rfl, rfl⟩, nofun⟩
        | false => exact ⟨h.safe, h, ⟨rfl, rfl⟩, nofun⟩

theorem existingMetadata_spec (h : Safe cs w) (expected : Option Uuid) :
    Run site cs (existingMetadata expected)
      (fun r w' => w = w' ∧ ∀ existing, r = .ok existing → existing = w.metadata) w := by
  refine wp_look rfl h fun readable _ => ?_
  cases readable with
  | false => exact ⟨rfl, nofun⟩
  | true =>
    cases hmeta : w.metadata with
    | some | none =>
      simp only [webhookService, Webhooks.act, hmeta]
      exact ⟨rfl, fun _ hx => (Except.ok.inj hx).symm⟩

/-- An operation the store does not hold to be stale has not seen its secret revoked
since its claim, unless it is one that resurrects it. -/
theorem not_revoked {secret : Bytes}
    (h : Open site a cs w) (hreq : a.query.request = .configure expected text)
    (hdecoded : decodeSecret text = .ok secret)
    (hmark : (w.metadata.filter fun value => value.lastOperationId == a.operation) = none)
    (hfit : stale expected w.metadata = false) (hcond : resurrects w a = false) :
    wasRevoked secret a.operation w.events = false := by
  refine Bool.eq_false_iff.mpr fun hrevoked => ?_
  obtain ⟨⟨request, hbefore⟩, op, hcurrent⟩ := of_wasRevoked hrevoked
  obtain rfl : request = .configure expected text :=
    h.core.unique _ _ _ hbefore.mem (hreq ▸ h.claimed)
  cases hmeta : w.metadata with
  | none => exact h.core.never hmeta _ _ hcurrent
  | some value =>
    rw [hmeta] at hfit hmark
    cases hen : value.enabled with
    | true =>
      have hexp : expected = some value.metadataRevision := by simpa [stale, hen] using hfit
      exact h.core.outdated value hmeta hen _ _ hbefore hexp
    | false =>
      obtain rfl : expected = none := by simpa [stale, hen] using hfit
      have hlast : value.lastOperationId ≠ a.operation := by simpa using hmark
      simp [resurrects, hreq, hmeta, hen, hlast, hdecoded, hrevoked] at hcond

theorem configureStore_spec (h : Open site a cs w)
    (hreq : a.query.request = .configure expected text) (hcond : resurrects w a = false) :
    Run site cs (configureStore expected a.operation text) (fun _ => Open site a cs) w := by
  refine wp_look rfl h.safe fun _ _ => ?_
  refine wp_accept_bind (fun _ _ => ?_) fun _ _ => h
  refine wp_ensure_bind (fun _ => ?_) fun _ => h
  refine wp_orElse_bind (fun decoded hdecoded => ?_) fun _ _ => h
  refine wp_part (existingMetadata_spec h.safe expected) ?_ ?_
  · rintro existing _ ⟨rfl, hexisting⟩
    obtain rfl := hexisting existing rfl
    split
    next value _ =>
      refine wp_look rfl h.safe fun _ _ => ?_
      exact wp_accept_bind (fun _ _ => h) fun _ _ => h
    next hmark =>
      refine wp_ensure_bind (fun hfit => ?_) fun _ => h
      have hold := not_revoked h hreq hdecoded hmark (by simpa using hfit) hcond
      refine wp_part (placeRevision_spec h hreq hdecoded) ?_ fun _ _ hplace => hplace.1
      rintro _ w1 ⟨h1, hsame, hplaced⟩
      refine wp_look rfl h1.safe fun now _ => ?_
      refine wp_call fun (skip : Nat) _ => ?_
      have h2 := h1.keep (h1.core.draw skip) rfl
      refine ⟨h2.safe, wp_call fun o _ => ?_⟩
      have hfresh : ∀ op request, .claimed op request ∈ w1.events → ∀ x,
          request.expected = some x → x < w1.next + skip := fun op request hmem x hx =>
        Nat.lt_of_lt_of_le ((h1.core.claims op request hmem).2 x hx) (Nat.le_add_right _ skip)
      have hwrite : Core (writeMetadata { w1 with next := w1.next + skip + 1 }
          (published w.metadata a.operation now (w1.next + skip))) :=
        h2.core.enable rfl rfl rfl (hreq ▸ h2.claimed) (hplaced rfl) hfresh (hsame.events ▸ hold)
      have h3 := h2.keep hwrite rfl
      cases o with
      | ok => exact ⟨h3.safe, h3⟩
      | failed applied =>
        cases applied with
        | true => exact ⟨h3.safe, h3⟩
        | false => exact ⟨h2.safe, h2⟩
  · rintro _ _ ⟨rfl, -⟩
    exact h

/-- `revoke` of the store keeps the invariant, and what it returns is not enabled. -/
theorem revokeStore_spec {expected : Uuid} (h : Open site a cs w)
    (hreq : a.query.request = .revoke expected) :
    Run site cs (revokeStore expected a.operation) (fun r w' => Open site a cs w' ∧
      ((∃ value, r = .ok value) →
        ∃ value, w'.metadata = some value ∧ value.enabled = false)) w := by
  refine wp_look rfl h.safe fun _ _ => ?_
  refine wp_accept_bind (fun _ _ => ?_) fun _ _ => ⟨h, nofun⟩
  refine wp_ensure_bind (fun _ => ?_) fun _ => ⟨h, nofun⟩
  refine wp_look rfl h.safe fun readable _ => ?_
  refine wp_accept_bind (fun value hload => ?_) fun _ _ => ⟨h, nofun⟩
  have hmeta : w.metadata = some value := by
    cases readable <;> cases hm : w.metadata <;>
      simp [webhookService, Webhooks.act, hm] at hload
    rw [hload]
  rw [wp_ite]
  refine ⟨fun hmark => ?_, fun _ => ?_⟩
  · -- The mark is this revocation's, and only a configure leaves the webhook enabled.
    have hoff : value.enabled = false := by
      refine Bool.eq_false_iff.mpr fun hen => ?_
      obtain ⟨_, _, hmem⟩ := h.core.enabler value hmeta hen
      cases h.core.unique _ _ _ (hreq ▸ h.claimed) (hmark ▸ hmem)
    refine wp_look rfl h.safe fun _ _ => ?_
    exact wp_accept_bind (fun _ _ => ⟨h, fun _ => ⟨value, hmeta, hoff⟩⟩) fun _ _ => ⟨h, nofun⟩
  · refine wp_ensure_bind (fun _ => ?_) fun _ => ⟨h, nofun⟩
    refine wp_call fun (skip : Nat) _ => ?_
    have h1 := h.keep (h.core.draw skip) rfl
    refine ⟨h1.safe, ?_⟩
    refine wp_look rfl h1.safe fun now _ => ?_
    refine wp_call fun o _ => ?_
    have hwrite : Core (writeMetadata { w with next := w.next + skip + 1 }
        ⟨false, w.next + skip, none, a.operation, value.createdAt, now, value.rotatedAt⟩) :=
      h1.core.disable rfl
    have h2 := h1.keep hwrite rfl
    cases o with
    | ok => exact ⟨h2.safe, h2, fun _ => ⟨_, rfl, rfl⟩⟩
    | failed applied =>
      cases applied with
      | true => exact ⟨h2.safe, h2, nofun⟩
      | false => exact ⟨h1.safe, h1, nofun⟩

/-! ## The handlers -/

theorem Open.close {f : Record String WebhookRequest Body → Record String WebhookRequest Body}
    (h : Open site a cs w) (hcore : Core w') (hf : Ledger.Advances f)
    (hledger : w'.ledger = w.ledger.update (route site) a.query.key f) : Safe cs w' :=
  ⟨hcore, hledger ▸ h.exclusive.update (c := a.toClaim site) hf h.apart⟩

theorem Core.ledger (h : Core w) {l : Ledger String WebhookRequest Body}
    (hl : l.Descends w.ledger) :
    Core { w with ledger := l } :=
  h.frame rfl rfl (Nat.le_refl _) (fun _ hr => hr) hl

theorem interrupt_spec (h : Safe cs w) (hapart : ∀ d ∈ cs, (a.toClaim site).Apart d) :
    Run site cs (interrupt a.query) (fun _ => Safe cs) w := by
  refine wp_call fun o _ => ?_
  have hdone : Safe cs { w with ledger := w.ledger.markInterrupted (route site) a.query.key } :=
    ⟨h.1.ledger (Ledger.descends_update Ledger.advances_interrupted),
      h.2.update (c := a.toClaim site) Ledger.advances_interrupted hapart⟩
  have hnew := Outcome.either (I := Safe cs) o h hdone
  exact ⟨hnew, hnew⟩

/-- Finishing keeps the account true: the success of a revocation is recorded only while
the webhook is disabled. -/
theorem Open.finish (h : Open site a cs w) {status : Nat} {body : Body} {errorCode : Option String}
    (hoff : status < 400 → (∃ expected, a.query.request = .revoke expected) →
      ∃ value, w.metadata = some value ∧ value.enabled = false) :
    Safe cs (w.finish site a.query.key status body errorCode) := by
  have hf := Ledger.advances_finished (κ := String) (ρ := WebhookRequest) status body errorCode
  refine h.close ?_ hf rfl
  obtain ⟨r, hr, hop, hreq, -⟩ := h.holds
  have hfind : w.ledger.find (route site) a.query.key = some r := hr
  have hevents : Core { w with events := w.revocation site a.query.key status ++ w.events } := by
    unfold Webhooks.revocation
    rw [hfind]
    dsimp only
    split
    next expected hrevoke =>
      split
      next hstatus => exact h.core.revoked (hoff hstatus ⟨expected, hreq.symm.trans hrevoke⟩)
      · exact h.core
    · exact h.core
  exact hevents.ledger (Ledger.descends_update hf)

theorem record_spec (h : Open site a cs w) {status : Nat} {body : Body} {errorCode : Option String}
    (hoff : status < 400 → (∃ expected, a.query.request = .revoke expected) →
      ∃ value, w.metadata = some value ∧ value.enabled = false) :
    Run site cs (record a.query status body errorCode) (fun _ => Safe cs) w := by
  refine wp_call fun o _ => ?_
  have hdone : Safe cs (w.finish site a.query.key status body errorCode) := h.finish hoff
  have hnew := Outcome.either (I := Safe cs) o h.safe hdone
  refine ⟨hnew, ?_⟩
  cases o with
  | ok => exact hnew
  | failed applied =>
    -- The record may be finished although the handler was told otherwise.
    exact interrupt_spec hnew h.apart

theorem finishError_spec (h : Open site a cs w) {code : String} {status : Nat}
    (hstatus : 400 ≤ status) : Run site cs (finishError a.query code status) (fun _ => Safe cs) w :=
  record_spec h fun hlt => absurd hstatus (Nat.not_le.mpr hlt)

theorem Core.cleanup (h : Core w) (kept : List Uuid) : Core (w.cleanupUnreferenced kept) :=
  h.frame rfl rfl (Nat.le_refl _) (fun _ hr => (List.mem_filter.mp hr).1)
    fun r hr => ⟨r, hr, rfl, rfl, rfl, rfl⟩

section

variable (h : Open site a cs w)

include h

theorem complete_spec (hoff : (∃ expected, a.query.request = .revoke expected) →
      ∃ value, w.metadata = some value ∧ value.enabled = false) :
    Run site cs (complete site a.query value) (fun _ => Safe cs) w := by
  refine wp_part (record_spec h fun _ => hoff) ?_ fun _ _ hsafe => hsafe
  rintro _ w' hsafe
  refine wp_call fun (o, kept) _ => ?_
  have hclean : Safe cs (w'.cleanupUnreferenced kept) := ⟨hsafe.1.cleanup kept, hsafe.2⟩
  exact ⟨hclean, hclean⟩

theorem withConfiguredApp_spec {act : Handler Reply} (hact : Run site cs act (fun _ => Safe cs) w) :
    Run site cs (withConfiguredApp a.query act) (fun _ => Safe cs) w := by
  refine wp_look rfl h.safe fun (answer : Except StoreError Bool) _ => ?_
  match answer with
  | .ok true => exact hact
  | .ok false => exact finishError_spec h (by decide)
  | .error .notFound => exact finishError_spec h (by decide)
  | .error .io | .error .contentInvalid | .error .revisionStale | .error .configRevisionConflict =>
    exact interrupt_spec h.safe h.apart

theorem configure_spec
    (hreq : a.query.request = .configure expected text) (hcond : resurrects w a = false) :
    Run site cs (configure site a.query a.operation expected text) (fun _ => Safe cs) w := by
  refine withConfiguredApp_spec h ?_
  refine wp_attempt_bind (configureStore_spec h hreq hcond) fun r w' h' => ?_
  match r with
  | .ok value => exact complete_spec h' fun ⟨_, hrevoke⟩ => nomatch hreq.symm.trans hrevoke
  | .error .revisionStale => exact finishError_spec h' (by decide)
  | .error .contentInvalid => exact finishError_spec h' (by decide)
  | .error .notFound | .error .io | .error .configRevisionConflict =>
    exact interrupt_spec h'.safe h'.apart

theorem revoke_spec {expected : Uuid} (hreq : a.query.request = .revoke expected) :
    Run site cs (revoke site a.query a.operation expected) (fun _ => Safe cs) w := by
  refine withConfiguredApp_spec h ?_
  refine wp_attempt_bind (revokeStore_spec h hreq) fun r w' h' => ?_
  match r with
  | .ok value => exact complete_spec h'.1 fun _ => h'.2 ⟨value, rfl⟩
  | .error .revisionStale => exact finishError_spec h'.1 (by decide)
  | .error .contentInvalid | .error .notFound | .error .io | .error .configRevisionConflict =>
    exact interrupt_spec h'.1.safe h'.1.apart

theorem handle_spec (hcond : resurrects w a = false) :
    Run site cs (handle site a) (fun _ => Safe cs) w := by
  unfold handle
  split
  next hreq => exact configure_spec h hreq hcond
  next hreq => exact revoke_spec h hreq

end

theorem Core.claimed {key : String} {skip : Nat}
    {result : ClaimResult Body} {ledger : Ledger String WebhookRequest Body} {fresh : Uuid}
      (h : Core w)
    (hfresh : fresh = max w.next ((request.expected.map (· + 1)).getD 0) + skip)
    (hclaim : w.ledger.claim (route site) key request fresh = .ok (result, ledger)) : Core { w with
      ledger, next := fresh + 1
      events := Webhooks.claimEvents request result ++ w.events } := by
  have hle : w.next ≤ fresh := hfresh ▸ Nat.le_trans (Nat.le_max_left ..) (Nat.le_add_right ..)
  rcases Ledger.claim_cases hclaim with ⟨-, rfl, rfl⟩ | ⟨r, -, -, -, rfl, rfl⟩ | ⟨_, _, _, rfl, rfl⟩
  · refine h.claim hle (Nat.lt_succ_self _) (fun x hx => ?_) fun r hr => ?_
    · rw [hx] at hfresh
      have hmax : x + 1 ≤ max w.next (x + 1) := Nat.le_max_right ..
      exact Nat.lt_succ_of_le (hfresh ▸ Nat.le_trans (Nat.le_trans (Nat.le_succ x) hmax)
        (Nat.le_add_right ..))
    · rcases List.mem_append.mp hr with hr | hr
      · exact .inl hr
      · cases List.mem_singleton.mp hr
        exact .inr ⟨rfl, rfl⟩
  · exact h.frame rfl rfl (Nat.le_succ_of_le hle) (fun _ hr => hr)
      (Ledger.descends_update fun _ => ⟨rfl, rfl, rfl, rfl⟩)
  · exact h.frame rfl rfl (Nat.le_succ_of_le hle) (fun _ hr => hr)
      fun r hr => ⟨r, hr, rfl, rfl, rfl, rfl⟩

theorem Safe.claim (h : Safe cs w) (site : Site) (key : String) (request : WebhookRequest)
    (o : Outcome)
    (skip : Nat) : Safe cs (w.claim site key request o skip).2 ∧
      ∀ op, (w.claim site key request o skip).1 = .ok (.new op) ∨
        (w.claim site key request o skip).1 = .ok (.resume op) →
        Safe (cs ++ [⟨route site, key, op, request⟩]) (w.claim site key request o skip).2 := by
  obtain ⟨hkeep, hadd⟩ := Ledger.answered_rule (I := Safe cs)
    (J := fun op _ => Safe (cs ++ [⟨route site, key, op, request⟩])) o h
    fun result ledger hclaim =>
      have hcore := h.1.claimed rfl hclaim
      ⟨⟨hcore, h.2.claimed hclaim⟩, fun op resumed hres =>
        ⟨hcore, h.2.claim hclaim (Ledger.granted_cases hres)⟩⟩
  exact ⟨hkeep, fun op hop => hop.elim (hadd op false) (hadd op true)⟩

theorem receive_spec (q : Query) (as : List Attempt) (h : Safe (as.map (Attempt.toClaim site)) w) :
    (webhookService site).world.wp (fun _ _ _ => True) (fun _ => True) (receive q)
      (fun r w' => Safe ((as ++ (Service.value r).toList).map (Attempt.toClaim site)) w') w := by
  refine wp_call fun (o, skip) _ => ⟨trivial, ?_⟩
  obtain ⟨hsafe, hadd⟩ := h.claim site q.key q.request o skip
  have hnone : Safe ((as ++ (none : Option Attempt).toList).map (Attempt.toClaim site))
      (w.claim site q.key q.request o skip).2 := by
    simpa using hsafe
  have hsome : ∀ op, Safe (as.map (Attempt.toClaim site) ++
      [⟨route site, q.key, op, q.request⟩]) (w.claim site q.key q.request o skip).2 →
      Safe ((as ++ (some (⟨q, op⟩ : Attempt)).toList).map (Attempt.toClaim site))
        (w.claim site q.key q.request o skip).2 := by
    intro op hs
    simpa [Attempt.toClaim] using hs
  have hact : (webhookService site).world.act w (.claim q.key q.request) (o, skip) =
    w.claim site q.key q.request o skip := rfl
  rw [hact]
  split
  next op hres => exact hsome op (hadd op (.inl hres))
  next op hres => exact hsome op (hadd op (.inr hres))
  · exact hnone
  · exact hnone

end Programs

/-! ## Histories -/

variable {site : Site}

/-- Every step keeps the account of revocations, if no late retry brings a secret back. -/
theorem keeps (site : Site) : (webhookService site).Keeps (fun _ _ _ _ => True)
    (fun w a => (!resurrects w a) = true) (fun _ _ => True)
    (fun w as => Safe (as.map (Attempt.toClaim site)) w) where
  forget w as i h := ⟨h.1, h.2.forget ((List.eraseIdx_sublist ..).map _)⟩
  forgetAll w as h := ⟨h.1, nofun, .nil⟩
  receive q w as h := receive_spec q as h
  serve w as i a hget h hcond := by
    have hsub := h.2.forget ((List.eraseIdx_sublist as i).map (Attempt.toClaim site))
    have hopen : Open site a ((as.eraseIdx i).map (Attempt.toClaim site)) w :=
      ⟨h.1, hsub, h.2.others hget,
        h.2.holds _ (List.mem_map_of_mem (List.mem_of_getElem? hget))⟩
    exact wp_attempt_bind (handle_spec hopen (by simpa using hcond)) fun _ _ hsafe => hsafe
  boot w h := by
    refine wp_call fun o _ => ?_
    have hint : Safe [] { w with ledger := w.ledger.interruptPending } :=
      ⟨h.1.ledger Ledger.descends_interruptPending, nofun, .nil⟩
    cases o with
    | ok => exact ⟨hint, hint⟩
    | failed applied => cases applied <;> first | exact ⟨hint, hint⟩ | exact ⟨h, h⟩
  change w as b _ h := by
    cases b with
    | collect picked =>
      exact ⟨h.1.ledger Ledger.descends_collect, fun d hd => (h.2.holds d hd).collect, h.2.apart⟩
    | cleanup kept => exact ⟨h.1.cleanup kept, h.2⟩

/-- In every history of webhook requests of an app, with crashes and retries anywhere, in
which no request that would resurrect a secret is served: no secret that was revoked
becomes current again through an operation claimed before the revocation. -/
theorem revoked_secret_stays_revoked (site : Site)
    (steps : List (Service.Step (webhookService site)))
    (h : Along (webhookService site).step
      (fun s a => (webhookService site).served (fun w a => !resurrects w a) s a = true)
      ⟨.empty, []⟩ steps) :
    reinstated (play (webhookService site).step ⟨.empty, []⟩ steps).world.events = false :=
  (Service.invariant (keeps site) (h.mono fun _ _ => Service.allowed_of_served)
    ⟨core_empty, nofun, .nil⟩).1.lasting

/-- Every call does what it is for. -/
def working (site : Site) : (webhookService site).world.Script
  | _, .claim _ _ => (.ok, 0)
  | _, .finish _ _ _ _ => .ok
  | _, .markInterrupted _ => .ok
  | _, .interruptPending => .ok
  | _, .isConfigured => .ok true
  | _, .loadMetadata => true
  | _, .writeMetadata _ => .ok
  | _, .repairDurability _ => .ok
  | _, .revisionExists _ => true
  | _, .publishRevision _ _ => .ok
  | _, .loadRevision _ => true
  | _, .cleanupUnreferenced => (.ok, [])
  | _, .nowUtc => (0 : Int)
  | _, .newUuid => (0 : Nat)

def someSite : Site := ⟨"https://solodock.example", 1⟩

/-- A request to configure the webhook for the first time. -/
def firstConfigure : Query :=
  ⟨"configure-webhook-1", .configure none (String.ofList (List.replicate 43 'A')), 0⟩

/-- A revocation of what `firstConfigure` enabled. -/
def revokeFirst : Query := ⟨"revoke-webhook-1", .revoke 1, 0⟩

/-- The process dies after `firstConfigure` enabled its secret and before its success is
recorded. The secret is revoked, and then the first request is retried under its key. -/
def retriedAfterRevoke : List (Service.Step (webhookService someSite)) :=
  let o := working someSite
  [.receive firstConfigure o, .giveUp 0 8 o, .restart o,
    .receive revokeFirst o, .serve 0 o,
    .receive firstConfigure o, .serve 0 o]

theorem retry_reinstates_revoked_secret :
    reinstated (play (webhookService someSite).step ⟨.empty, []⟩ retriedAfterRevoke).world.events
      = true := by
  decide +kernel

/-- The same requests without the crash, and a new configure of the same secret at the end. -/
def configuredAnew : List (Service.Step (webhookService someSite)) :=
  let o := working someSite
  [.receive firstConfigure o, .serve 0 o, .receive revokeFirst o, .serve 0 o,
    .receive firstConfigure o, .receive { firstConfigure with key := "configure-webhook-2" } o,
    .serve 0 o]

theorem configured_anew_not_reinstated :
    reinstated (play (webhookService someSite).step ⟨.empty, []⟩ configuredAnew).world.events
      = false :=
  revoked_secret_stays_revoked someSite configuredAnew (by decide +kernel)

end SoloDock.Webhook
