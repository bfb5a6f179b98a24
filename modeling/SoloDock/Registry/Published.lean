import SoloDock.Mutation.Honest
import SoloDock.Registry.Vault

/-!
# A rejected credential was not stored

The store recognises its own earlier success by the mark that the credential's metadata
carries, `last_operation_id`. Another operation may overwrite the mark or remove the
credential before the first is resumed; the checks that follow can then reject an
operation that has published its credential.

`Truthful` is kept by every history in which a resumed create or update that has
published its credential finds it with its mark, or not at all readable.
-/

namespace SoloDock.Credentials

open Lib Mutation Lib.Prog
open Lib.World
open Lib.Prog (accept ask)

namespace Attempt

/-- The row the attempt works for. -/
def claim (a : Attempt) : Claim Route Request :=
  ⟨a.query.request.route, a.query.key, a.operation, a.query.request⟩

end Attempt

def Task.claim : Task → Option (Claim Route Request)
  | .attempt a => some a.claim
  | .finalize => none

def underWay (ts : List Task) : List (Claim Route Request) := ts.filterMap Task.claim

namespace Request

/-- The request stores a credential. -/
def stores : Request → Bool
  | create _ _ _ => true
  | update _ _ _ _ => true
  | delete _ _ => false

/-- The username passes the check that `update` makes before it looks at the credential. -/
def named : Request → Bool
  | update _ _ username _ => validUsername username
  | _ => true

end Request

/-- No rejected operation has published a credential. -/
structure Truthful (w : Vault) (ts : List Task) : Prop where
  honest : w.ledger.Honest Request.stores w.next (underWay ts) w.published
  drawn : ∀ op ∈ w.published, op < w.next
  named : ∀ r ∈ w.ledger, r.operationId ∈ w.published → r.request.named = true

namespace Truthful

variable {w w' : Vault} {ts : List Task}

theorem empty : Truthful .empty [] :=
  ⟨.nil, fun _ h => absurd h List.not_mem_nil, fun _ h => absurd h List.not_mem_nil⟩

theorem forget (h : Truthful w ts) (i : Nat) : Truthful w (ts.eraseIdx i) :=
  ⟨h.honest.forget ((List.eraseIdx_sublist ts i).filterMap _), h.drawn, h.named⟩

theorem forgetAll (h : Truthful w ts) : Truthful w [] :=
  ⟨h.honest.forget (List.nil_sublist _), h.drawn, h.named⟩

theorem congr (h : Truthful w ts) (hledger : w'.ledger = w.ledger) (hnext : w'.next = w.next)
    (hpublished : w'.published = w.published) : Truthful w' ts := by
  refine ⟨?_, ?_, ?_⟩
  · rw [hledger, hnext, hpublished]
    exact h.honest
  · rw [hnext, hpublished]
    exact h.drawn
  · rw [hledger, hpublished]
    exact h.named

theorem descends (h : Truthful w ts) {ts' : List Task}
    (hhonest : w'.ledger.Honest Request.stores w'.next (underWay ts') w'.published)
    (hpublished : w'.published = w.published) (hnext : w.next ≤ w'.next)
    (hdescends : w'.ledger.Descends w.ledger) : Truthful w' ts' := by
  refine ⟨hhonest, fun op hop => ?_, fun r hr hmem => ?_⟩
  · rw [hpublished] at hop
    exact Nat.lt_of_lt_of_le (h.drawn op hop) hnext
  · obtain ⟨s, hs, -, -, hop, hreq⟩ := hdescends r hr
    rw [hpublished, hop] at hmem
    rw [hreq]
    exact h.named s hs hmem

end Truthful

/-! ## Claims -/

variable {w : Vault} {ts : List Task} {e : Call}

theorem Truthful.claim (h : Truthful w ts) (q : Query) (o : Outcome)
    (skip : Nat) : Truthful (w.claim q o skip).2 ts ∧ ∀ op resumed,
      (w.claim q o skip).1 = .ok (if resumed then .resume op else .new op) →
      Truthful (w.claim q o skip).2 (ts ++ [.attempt ⟨q, op, resumed⟩]) := by
  refine Ledger.answered_rule (I := (Truthful · ts))
    (J := fun op resumed => (Truthful · (ts ++ [.attempt ⟨q, op, resumed⟩]))) o h
    fun result ledger hclaim => ?_
  have hfresh : w.next ≤ max w.next (Vault.mentioned q.request) + skip :=
    Nat.le_trans (Nat.le_max_left _ _) (Nat.le_add_right _ _)
  have hgranted : ∀ ts', underWay ts' = underWay ts ∨ (∃ op,
      (result = .new op ∨ result = .resume op) ∧
      underWay ts' = underWay ts ++ [⟨q.request.route, q.key, op, q.request⟩]) →
      Truthful
        { w with ledger, next := max w.next (Vault.mentioned q.request) + skip + 1 } ts' := by
    intro ts' hts
    refine ⟨h.honest.claim hfresh hclaim hts,
      fun op hop => Nat.lt_of_lt_of_le (h.drawn op hop) (Nat.le_succ_of_le hfresh),
      fun r hr hmem => ?_⟩
    rcases Ledger.origin_claim hclaim hr with ⟨s, hs, hop, hreq⟩ | ⟨hop, -⟩
    · rw [← hop] at hmem
      rw [← hreq]
      exact h.named s hs hmem
    · -- The operation of a new record has published nothing.
      rw [hop] at hmem
      exact absurd (h.drawn _ hmem) (Nat.not_lt_of_le hfresh)
  refine ⟨hgranted ts (.inl rfl), fun op resumed hres => ?_⟩
  refine hgranted _ (.inr ⟨op, Ledger.granted_cases hres, ?_⟩)
  rw [underWay, List.filterMap_append]
  rfl

/-! ## Calls that publish nothing -/

/-- The calls that leave ledger and account alone. -/
def Call.Quiet : Call → Prop
  | .claim _ => False
  | .finish _ _ _ _ _ => False
  | .markInterrupted _ _ => False
  | .interruptPending => False
  | .publish _ _ => False
  | .writeMetadata _ => False
  | _ => True

theorem Call.Quiet.same (h : e.Quiet) (w : Vault) (c : Choice e) :
    (w.act e c).2.ledger = w.ledger ∧ (w.act e c).2.next = w.next ∧
      (w.act e c).2.published = w.published := by
  cases e with
  | placeSecret id revision secret =>
    show (if c.applied then w.edit id _ else w).ledger = _ ∧
      (if c.applied then w.edit id _ else w).next = _ ∧
      (if c.applied then w.edit id _ else w).published = _
    split <;> exact ⟨rfl, rfl, rfl⟩
  | moveToTrash id op =>
    cases c with
    | renamed rest synced =>
      simp only [Vault.act, Vault.moveToTrash]
      split <;> exact ⟨rfl, rfl, rfl⟩
    | _ => exact ⟨rfl, rfl, rfl⟩
  | removeTombstone id op => cases c <;> exact ⟨rfl, rfl, rfl⟩
  | _ => first | exact h.elim | exact ⟨rfl, rfl, rfl⟩

variable {c : Choice e}

theorem Truthful.quiet (he : e.Quiet) (h : Truthful w ts) : Truthful (w.act e c).2 ts := by
  obtain ⟨hledger, hnext, hpublished⟩ := he.same w c
  exact h.congr hledger hnext hpublished

section Only

theorem only_fromStore {p : Call → Prop} {s : Store α} (hs : s.Only p) : (fromStore s).Only p := by
  refine only_bind (only_attempt hs) fun r => ?_
  cases r with
  | ok a => trivial
  | error err => trivial

theorem finalizeTombstone_only (id op : Uuid) : (finalizeTombstone id op).Only Call.Quiet := by
  refine only_call trivial fun r => only_orElse_bind fun present => ?_
  refine only_bind ?_ fun _ => only_call trivial fun r => only_orElse r _
  unfold removeExact
  split
  · exact only_call trivial fun r => only_orElse r _
  · trivial

theorem finalizeEach_only : ∀ l, (finalizeEach l).Only Call.Quiet
  | [] => trivial
  | (id, op) :: rest => by
    refine only_call trivial fun r => only_orElse_bind fun row => ?_
    refine only_orElse_bind fun succeeded => ?_
    cases succeeded with
    | true =>
      exact only_bind (only_fromStore (finalizeTombstone_only id op)) fun _ =>
        finalizeEach_only rest
    | false => exact finalizeEach_only rest

theorem finalizeSucceededCredentialTombstones_only :
    finalizeSucceededCredentialTombstones.Only Call.Quiet :=
  only_bind (only_fromStore (only_call trivial fun r => only_orElse r _)) finalizeEach_only

end Only

/-- Every response recorded along the program is truthful. -/
abbrev Tells (G : Vault → (e : Call) → Choice e → Prop) (ts : List Task) {ε α : Type}
    (p : Prog Call Answer ε α) (w : Vault) : Prop :=
  vaultWorld.wp G (Truthful · ts) p (fun _ => (Truthful · ts)) w

variable {G : Vault → (e : Call) → Choice e → Prop}

theorem Truthful.only {p : Prog Call Answer ε α} (hp : p.Only Call.Quiet) (h : Truthful w ts) :
    Tells G ts p w :=
  wp_of_only hp (fun _ _ _ he _ hw => hw.quiet he) (fun _ hw => hw) h

/-! ## The condition -/

/-- The store answers with a reading error, which is retried. -/
def StoreError.retried : StoreError → Bool
  | .io => true
  | _ => false

/-- The answer shows the credential with the operation's mark, or is a reading error. -/
def vouches (operation : Uuid) : (e : Call) → Answer e → Bool
  | .directoryExists _, .ok there => there
  | .directoryExists _, .error error => error.retried
  | .loadMetadata _, .ok metadata => metadata.lastOperationId == operation
  | .loadMetadata _, .error error => error.retried
  | .load _, .ok (metadata, _) => metadata.lastOperationId == operation
  | .load _, .error error => error.retried
  | _, _ => true

/-- An operation that has published its credential finds it with its mark, or cannot read
it. -/
def recognises (a : Attempt) (w : Vault) (e : Call) (c : Choice e) : Bool :=
  !w.published.contains a.operation || vouches a.operation e (w.act e c).1

/-! ## Handlers -/

section Handlers

variable {a : Attempt} {rest : List Task} {w : Vault}

/-- Served, with its record open. -/
abbrev Open (a : Attempt) (rest : List Task) (w : Vault) : Prop :=
  Truthful w rest ∧ w.ledger.Holds a.claim

theorem Open.quiet (he : e.Quiet) (h : Open a rest w) : Open a rest (w.act e c).2 := by
  obtain ⟨hledger, -, -⟩ := he.same w c
  exact ⟨h.1.quiet he, hledger ▸ h.2⟩

theorem Open.publishes (h : Open a rest w) (hnamed : a.query.request.named = true)
    (live : List Credential) :
    Open a rest { w with live, published := a.operation :: w.published } := by
  obtain ⟨htruth, hholds⟩ := h
  refine ⟨⟨?_, fun op hop => ?_, fun r hr hmem => ?_⟩, hholds⟩
  · exact htruth.honest.enter hholds fun op hop => (List.mem_cons.mp hop).symm
  · rcases List.mem_cons.mp hop with rfl | hop
    · obtain ⟨r, hr, hop, -⟩ := hholds
      have hlt := htruth.honest.rows.below r (Ledger.find_some hr).1
      rw [hop] at hlt
      exact hlt
    · exact htruth.drawn op hop
  · rcases List.mem_cons.mp hmem with hop | hmem
    · rw [(htruth.honest.rows.pending hholds hr hop).2.2]
      exact hnamed
    · exact htruth.named r hr hmem

theorem interruptCredential_spec (h : Truthful w rest)
    (hapart : ∀ d ∈ underWay rest, a.claim.Apart d) : Tells G rest (interruptCredential a) w := by
  refine wp_call fun o _ => ?_
  have hnew : Truthful (w.act (.markInterrupted a.query.request.route a.query.key) o).2 rest := by
    refine Outcome.either (I := (Truthful · rest)) o h ?_
    refine h.descends (h.honest.markInterrupted (c := a.claim) hapart) rfl (Nat.le_refl _) ?_
    exact Ledger.descends_update Ledger.advances_interrupted
  exact ⟨hnew, hnew⟩

theorem record_spec (h : Open a rest w) (hapart : ∀ d ∈ underWay rest, a.claim.Apart d)
    {status : Nat} {body : Body} {code : Option String}
    (hfree : a.query.request.stores = true → 400 ≤ status → status < 500 →
      a.operation ∉ w.published) : Tells G rest (record a status body code) w := by
  obtain ⟨htruth, hholds⟩ := h
  refine wp_call fun o _ => ?_
  have hnew :
      Truthful (w.act (.finish a.query.request.route a.query.key status body code) o).2 rest := by
    refine Outcome.either (I := (Truthful · rest)) o htruth ?_
    refine htruth.descends (htruth.honest.finish (c := a.claim) hapart hholds hfree) rfl
      (Nat.le_refl _) ?_
    exact Ledger.descends_update (Ledger.advances_finished _ _ _)
  refine ⟨hnew, ?_⟩
  cases o with
  | ok => exact hnew
  | failed applied => exact interruptCredential_spec hnew hapart

/-- What the store leaves: if it refuses, the operation has published nothing. -/
def Leaves (a : Attempt) (rest : List Task) {α : Type} (r : Except StoreError α) (w : Vault) :
    Prop :=
  Open a rest w ∧ ∀ error, r = .error error → error.retried = false → a.operation ∉ w.published

theorem Leaves.ok {value : α} (h : Open a rest w) : Leaves a rest (.ok value) w :=
  ⟨h, nofun⟩

theorem Leaves.error {error : StoreError} (h : Open a rest w)
    (hfree : error.retried = false → a.operation ∉ w.published) :
    Leaves a rest (.error error : Except StoreError α) w :=
  ⟨h, fun _ heq => by cases heq; exact hfree⟩

/-- Served, and it has published nothing yet. -/
abbrev Fresh (a : Attempt) (rest : List Task) (w : Vault) : Prop :=
  Open a rest w ∧ a.operation ∉ w.published

theorem Fresh.error (h : Fresh a rest w) (error : StoreError) :
    Leaves a rest (.error error : Except StoreError α) w :=
  .error h.1 fun _ => h.2

abbrev Performs (G : Vault → (e : Call) → Choice e → Prop) (a : Attempt) (rest : List Task)
    {α : Type} (p : Store α) (w : Vault) : Prop :=
  vaultWorld.wp G (Open a rest) p (Leaves a rest) w

section Rules

variable {α β : Type}

theorem fresh_ask {k : Answer e → Store β} (he : e.Quiet) (h : Fresh a rest w)
    (hk : ∀ c, Fresh a rest (w.act e c).2 → Performs G a rest (k (w.act e c).1) (w.act e c).2) :
    Performs G a rest (ask e >>= k) w := by
  refine wp_call fun c _ => ?_
  have hnew : Fresh a rest (w.act e c).2 := ⟨h.1.quiet he, (he.same w c).2.2 ▸ h.2⟩
  exact ⟨hnew.1, hk c hnew⟩

theorem fresh_accept {r : Except StoreError α} {k : α → Store β} (h : Fresh a rest w)
    (hk : ∀ x, Performs G a rest (k x) w) : Performs G a rest (accept r >>= k) w :=
  wp_accept_bind (fun x _ => hk x) fun error _ => h.error error

theorem fresh_ensure {c : Bool} {error : StoreError} {k : Unit → Store β} (h : Fresh a rest w)
    (hk : Performs G a rest (k ()) w) : Performs G a rest (Prog.ensure c error >>= k) w :=
  wp_ensure_bind (fun _ => hk) fun _ => h.error error

end Rules

variable {metadata : CredentialMetadata}

/-- Where the condition does not vouch for an answer, the operation has published nothing. -/
theorem free_of_recognises {answer : Answer e}
    (hc : recognises a w e c = true) (hanswer : (w.act e c).1 = answer)
    (hbad : vouches a.operation e answer = false) : a.operation ∉ w.published := by
  rw [recognises, hanswer, hbad, Bool.or_false] at hc
  simpa using hc

theorem publish_spec {secret : String} (h : Fresh a rest w)
    (hnamed : a.query.request.named = true) (hop : metadata.lastOperationId = a.operation) :
    Performs G a rest (do accept (← ask (Call.publish metadata secret)); return metadata) w := by
  refine wp_call fun c _ => ?_
  have hconflict : Leaves a rest (.error .appConflict : Except StoreError CredentialMetadata) w :=
    h.error _
  cases c with
  | failed | conflict => exact ⟨h.1, h.error _⟩
  | renamed synced =>
    show Open a rest (w.publish metadata secret (.renamed synced)).2 ∧
      Performs G a rest (accept (w.publish metadata secret (.renamed synced)).1 >>= _) (w.publish
        metadata secret (.renamed synced)).2
    unfold Vault.publish
    dsimp only
    split
    · exact ⟨h.1, h.error _⟩
    · rw [hop]
      have hnew := h.1.publishes hnamed (⟨metadata, [(metadata.secretRevision, secret)]⟩ :: w.live)
      cases synced with
      | true => exact ⟨hnew, .ok hnew⟩
      | false => exact ⟨hnew, .error hnew nofun⟩

theorem createStore_spec (h : Open a rest w) (hnamed : a.query.request.named = true)
    (registry username secret : String) :
    vaultWorld.wp (fun w e c => recognises a w e c = true) (Open a rest)
      (createStore a.operation a.operation registry username secret) (Leaves a rest) w := by
  refine wp_look rfl h fun failure hc => ?_
  refine wp_accept_bind (fun there hthere => ?_) fun error herror => ?_
  · cases there with
    | true =>
      refine wp_look rfl h fun failure hc => ?_
      refine wp_accept_bind (fun existing hexisting => ?_) fun error herror => ?_
      · refine wp_ensure_bind (fun _ => .ok h) fun hother => .error h fun _ => ?_
        exact free_of_recognises hc hexisting hother
      · exact .error h fun hrefuses => free_of_recognises hc herror hrefuses
    | false =>
      have hfresh : Fresh a rest w := ⟨h, free_of_recognises hc hthere rfl⟩
      refine fresh_ask trivial hfresh fun _ hfresh => fresh_accept hfresh fun credentials => ?_
      refine fresh_ensure hfresh ?_
      refine wp_orElse_bind (fun registry _ => ?_) fun _ _ => hfresh.error _
      refine fresh_ensure hfresh (fresh_ensure hfresh ?_)
      refine fresh_ask trivial hfresh fun _ hfresh => fresh_accept hfresh fun credentials => ?_
      refine fresh_ensure hfresh ?_
      refine fresh_ask trivial hfresh fun now hfresh => ?_
      refine fresh_ask trivial hfresh fun secretRevision hfresh => ?_
      refine fresh_ask trivial hfresh fun revision hfresh => ?_
      exact publish_spec hfresh hnamed rfl
  · exact .error h fun hrefuses => free_of_recognises hc herror hrefuses

theorem rotate_spec {current : CredentialMetadata} {now : Instant} (h : Fresh a rest w)
    (replacement : Option String) : vaultWorld.wp G (Open a rest) (rotate current now replacement)
      (fun _ w' => Fresh a rest w') w := by
  have honly : (rotate current now replacement).Only Call.Quiet := by
    cases replacement with
    | none => trivial
    | some secret =>
      refine only_ensure_bind fun _ => only_call trivial fun revision => ?_
      exact only_call trivial fun r => only_orElse_bind fun _ => trivial
  exact wp_of_only honly (fun w e c he _ hw => ⟨hw.1.quiet he, (he.same w c).2.2 ▸ hw.2⟩)
    (fun _ hw => hw.1) h

theorem writeMetadata_spec (h : Fresh a rest w)
    (hnamed : a.query.request.named = true) (hop : metadata.lastOperationId = a.operation) :
    Performs G a rest (do accept (← ask (Call.writeMetadata metadata)); return metadata) w := by
  refine wp_call fun o _ => ?_
  have hnew : Open a rest (w.writeMetadata metadata) := by
    unfold Vault.writeMetadata
    rw [hop]
    exact h.1.publishes hnamed _
  cases o with
  | ok => exact ⟨hnew, .ok hnew⟩
  | failed applied =>
    cases applied with
    | true => exact ⟨hnew, .error hnew nofun⟩
    | false => exact ⟨h.1, .error h.1 nofun⟩

theorem updateStore_spec {id expected : Uuid} {username : String} {replacement : Option String}
    (h : Open a rest w) (hreq : a.query.request = .update id expected username replacement) :
    vaultWorld.wp (fun w e c => recognises a w e c = true) (Open a rest)
      (updateStore id expected a.operation username replacement) (Leaves a rest) w := by
  have hnamed : validUsername username = a.query.request.named := by rw [hreq]; rfl
  refine wp_ensure_bind (fun hvalid => ?_) fun hinvalid => .error h fun _ hmem => ?_
  · rw [hnamed] at hvalid
    refine wp_look rfl h fun failure hc => ?_
    refine wp_accept_bind (fun loaded hloaded => ?_) fun error herror => ?_
    · obtain ⟨current, token⟩ := loaded
      refine wp_if (fun _ => .ok h) fun hother => ?_
      have hfresh : Fresh a rest w := ⟨h, free_of_recognises hc hloaded (beq_false_of_ne hother)⟩
      refine fresh_ensure hfresh ?_
      refine fresh_ask trivial hfresh fun _ hfresh => fresh_accept hfresh fun credentials => ?_
      refine fresh_ensure hfresh (fresh_ask trivial hfresh fun now hfresh => ?_)
      refine wp_part (rotate_spec hfresh replacement) (fun rotated w' hfresh => ?_)
        fun error w' hfresh => hfresh.error error
      refine fresh_ask trivial hfresh fun revision hfresh => ?_
      exact writeMetadata_spec hfresh hvalid rfl
    · exact .error h fun hrefuses => free_of_recognises hc herror hrefuses
  · -- A request with this username has never got past the check.
    obtain ⟨r, hr, hop, hr', -⟩ := h.2
    have hfit := h.1.named r (Ledger.find_some hr).1 (by rw [hop]; exact hmem)
    have hreq' : r.request = a.query.request := hr'
    rw [hreq', ← hnamed, hinvalid] at hfit
    cases hfit

/-! ### From the claim to the response -/

theorem finishCredential_spec (h : Open a rest w) (hapart : ∀ d ∈ underWay rest, a.claim.Apart d)
    {status : Nat} (hstatus : status < 400)
    (value : CredentialMetadata) : Tells G rest (finishCredential a status value) w := by
  refine wp_look rfl h.1 fun _ _ => wp_look rfl h.1 fun _ _ => ?_
  refine record_spec h hapart fun _ hge => ?_
  omega

theorem finishDeleted_spec (h : Open a rest w) (hapart : ∀ d ∈ underWay rest, a.claim.Apart d)
    (id : Uuid) : Tells G rest (finishDeleted a id) w := by
  refine wp_part (record_spec h hapart fun _ hge => ?_) (fun response w' htruth => ?_)
    fun _ _ htruth => htruth
  · omega
  · refine wp_part (P := fun _ => (Truthful · rest)) ?_ (fun _ _ htruth => htruth)
      fun _ _ htruth => htruth
    exact wp_attempt_bind (htruth.only finalizeSucceededCredentialTombstones_only)
      fun _ _ htruth => htruth

theorem tombstone_only (id op : Uuid) : (tombstone id op).Only Call.Quiet := by
  refine only_call trivial fun r => only_orElse_bind fun there => ?_
  cases there with
  | true => trivial
  | false =>
    refine only_call trivial fun r => only_orElse_bind fun _ => ?_
    exact only_call trivial fun r => only_orElse r _

theorem deleteCredential_spec (h : Open a rest w) (hapart : ∀ d ∈ underWay rest, a.claim.Apart d)
    (hstores : a.query.request.stores = false)
    (id expected : Uuid) : Tells G rest (deleteCredential a id expected) w := by
  have hrefuse : ∀ code status, Tells G rest (finishError a code status) w := fun code status =>
    record_spec h hapart fun habout => by
      rw [hstores] at habout
      cases habout
  refine wp_look rfl h.1 fun failure _ => ?_
  split
  · exact interruptCredential_spec h.1 hapart
  · refine wp_part (finishDeleted_spec h hapart id) (fun response w' htruth => ?_)
      fun _ _ htruth => htruth
    exact wp_look rfl htruth fun _ _ => htruth
  · refine wp_look rfl h.1 fun failure _ => ?_
    split
    · exact interruptCredential_spec h.1 hapart
    next values _ =>
      split
      · exact hrefuse _ _
      next metadata _ =>
        refine wp_if (fun _ => hrefuse _ _) fun _ => ?_
        refine wp_look rfl h.1 fun answer _ => ?_
        split
        · exact hrefuse _ _
        · exact hrefuse _ _
        · have hmove : vaultWorld.wp G (Truthful · rest) (tombstone id a.operation)
              (fun _ => Open a rest) w :=
            wp_of_only (tombstone_only id a.operation) (fun w e c he _ hw => hw.quiet he)
              (fun _ hw => hw.1) h
          refine wp_attempt_bind hmove fun r w' hopen => ?_
          cases r with
          | error => exact interruptCredential_spec hopen.1 hapart
          | ok _ =>
            exact wp_look rfl hopen.1 fun _ _ => finishDeleted_spec hopen hapart id

theorem wp_store {s : Store α}
    {k : Except StoreError α → Handler Response} (hs : Performs G a rest s w)
    (hk : ∀ r w', Leaves a rest r w' → Tells G rest (k r) w') : Tells G rest (s.attempt >>= k) w :=
  wp_attempt_bind (wp_weaken hs (fun _ _ _ hc => hc) (fun _ hw => hw.1) fun _ _ hr => hr) hk

theorem handle_spec (h : Open a rest w) (hapart : ∀ d ∈ underWay rest, a.claim.Apart d) :
    vaultWorld.wp (fun w e c => recognises a w e c = true) (Truthful · rest) (handle a)
      (fun _ => (Truthful · rest)) w := by
  have hrefuse : ∀ {α : Type} {error : StoreError} {w' : Vault} {code : String} {status : Nat},
      error.retried = false → Leaves a rest (.error error : Except StoreError α) w' →
      vaultWorld.wp (fun w e c => recognises a w e c = true) (Truthful · rest)
        (finishError a code status) (fun _ => (Truthful · rest)) w' :=
    fun hrefuses hleaves => record_spec hleaves.1 hapart fun _ _ _ => hleaves.2 _ rfl hrefuses
  unfold handle
  split
  next registry username secret hreq =>
    refine wp_store (createStore_spec h (by rw [hreq]; rfl) registry username secret)
      fun r w' hr => ?_
    match r, hr with
    | .ok value, hr => exact finishCredential_spec hr.1 hapart (by decide) value
    | .error .contentInvalid, hr | .error .appConflict, hr => exact hrefuse rfl hr
    | .error .revisionStale, hr | .error .io, hr => exact interruptCredential_spec hr.1.1 hapart
  next id expected username secret hreq =>
    refine wp_store (updateStore_spec h hreq) fun r w' hr => ?_
    match r, hr with
    | .ok value, hr => exact finishCredential_spec hr.1 hapart (by decide) value
    | .error .contentInvalid, hr | .error .appConflict, hr | .error .revisionStale, hr =>
      exact hrefuse rfl hr
    | .error .io, hr => exact interruptCredential_spec hr.1.1 hapart
  next id expected hreq => exact deleteCredential_spec h hapart (by rw [hreq]; rfl) id expected

end Handlers

/-! ## Every history -/

/-- `recognises` as a condition on the steps of a history. -/
def Recognises (t : Option Task) (w : Vault) (e : Call) (c : credentialService.world.Choice e) :
    Prop :=
  match t with
  | some (.attempt a) => recognises a w e c = true
  | _ => True

instance (t : Option Task) (w : Vault) (e : Call) (c : credentialService.world.Choice e) :
    Decidable (Recognises t w e c) := by
  unfold Recognises
  split
  · exact inferInstanceAs (Decidable (_ = true))
  · exact inferInstanceAs (Decidable True)

/-- The record of an attempt that is served is pending, and the others have keys of their
own. -/
theorem Truthful.serving {i : Nat} {a : Attempt} (h : Truthful w ts)
    (hget : ts[i]? = some (.attempt a)) :
    Open a (ts.eraseIdx i) w ∧ ∀ d ∈ underWay (ts.eraseIdx i), a.claim.Apart d := by
  refine ⟨⟨h.forget i, h.honest.under.holds a.claim ?_⟩, h.honest.under.among (f := Task.claim)
    (a := .attempt a) rfl hget⟩
  exact List.mem_filterMap.mpr ⟨_, List.mem_of_getElem? hget, rfl⟩

theorem Truthful.idle (h : Truthful w ts) : Truthful w (ts ++ [.finalize]) := by
  have hidle : underWay (ts ++ [.finalize]) = underWay ts := by simp [underWay, Task.claim]
  exact ⟨hidle ▸ h.honest, h.drawn, h.named⟩

theorem loadEach_only : ∀ l : List CredentialMetadata, (loadEach l).Only Call.Quiet
  | [] => trivial
  | _ :: rest => only_call trivial fun _ => only_orElse_bind fun _ => loadEach_only rest

theorem startup_only : ∀ r : Except IdempotencyError Unit, (do
    accept r
    fromStore startupCleanup
    finalizeSucceededCredentialTombstones
    let credentials ← fromStore (do accept (← ask Call.list))
    fromStore (loadEach credentials) : Finalizer Unit).Only Call.Quiet := by
  intro r
  refine only_orElse_bind fun _ => only_bind (only_fromStore ?_) fun _ => ?_
  · refine only_call trivial fun r => only_orElse_bind fun _ => ?_
    exact only_call trivial fun r => only_orElse r _
  · refine only_bind finalizeSucceededCredentialTombstones_only fun _ => ?_
    refine only_bind (only_fromStore ?_) fun credentials => only_fromStore (loadEach_only _)
    exact only_call trivial fun r => only_orElse r _

theorem truthful_keeps :
    credentialService.Keeps Recognises (fun _ _ => True) (fun _ _ => True) Truthful where
  forget w ts i h := h.forget i
  forgetAll w ts h := h.forgetAll
  receive arrival w ts h := by
    cases arrival with
    | reconcile => exact h.idle
    | request q =>
      refine wp_call fun (o, skip) _ => ⟨trivial, ?_⟩
      obtain ⟨hsame, hadd⟩ := h.claim q o skip
      have hnone : Truthful (w.claim q o skip).2 (ts ++ []) := by
        rw [List.append_nil]
        exact hsame
      have hact : w.act (Call.claim q) (o, skip) = w.claim q o skip := rfl
      dsimp only [credentialService]
      rw [hact]
      split
      next op hres => exact hadd op false hres
      next op hres => exact hadd op true hres
      · split
        · exact hsame.idle
        · exact hnone
      · exact hnone
  serve w ts i t hget h _ := by
    cases t with
    | attempt a =>
      obtain ⟨hopen, hapart⟩ := h.serving hget
      exact wp_attempt_bind (handle_spec hopen hapart) fun _ _ h => h
    | finalize =>
      exact wp_attempt_bind ((h.forget i).only finalizeSucceededCredentialTombstones_only)
        fun _ _ h => h
  boot w h := by
    refine wp_attempt_bind (P := fun _ => (Truthful · [])) ?_ fun _ _ h => h
    refine wp_call fun o _ => ?_
    have hnew : Truthful (w.act .interruptPending o).2 [] := by
      show Truthful (if o.applied then { w with ledger := w.ledger.interruptPending } else w) []
      split
      · exact h.descends h.honest.interruptPending rfl
          (Nat.le_refl _) Ledger.descends_interruptPending
      · exact h
    exact ⟨hnew, hnew.only (startup_only _)⟩
  change w ts b _ h := by
    cases b with
    | collect picked =>
      dsimp only [credentialService, Vault.change]
      split
      · exact h.descends (h.honest.collect _ _) rfl (Nat.le_refl _) Ledger.descends_collect
      · exact h

/-- In every history in which an operation that has published its credential finds it with
its mark when it is resumed, no rejected operation has published one. -/
theorem rejected_not_published {steps : List credentialService.Step}
    (h : Along credentialService.step
      (credentialService.Allowed Recognises (fun _ _ => True) (fun _ _ => True))
      ⟨.empty, []⟩ steps) : ∀ r ∈ (play credentialService.step ⟨.empty, []⟩ steps).world.ledger,
      r.request.stores = true → r.rejected = true →
      r.operationId ∉ (play credentialService.step ⟨.empty, []⟩ steps).world.published :=
  (Service.invariant truthful_keeps h Truthful.empty).honest.honest

end SoloDock.Credentials
