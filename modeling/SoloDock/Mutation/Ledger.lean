import SoloDock.Lib.Encoding
import SoloDock.Lib.Service

/-!
# The idempotency ledger

`idempotency.rs`: one record per route and key, holding the fingerprint of the request
that claimed it, the operation id drawn for it, its status and, once finished, the
response. Claiming a key again with the same request replays a finished operation,
resumes an interrupted one and refuses a pending one; a restart turns every pending
record into an interrupted one.

The fingerprint is an HMAC of the request, and stands here as the request itself; the
stored key is an HMAC of the key, and stands as the key.
-/

namespace SoloDock.Mutation

open Lib

inductive Status where
  | pending
  | succeeded
  | failed
  | interrupted
  deriving DecidableEq, Repr

inductive EffectPhase where
  | started
  | completed
  deriving DecidableEq, Repr

structure EffectMarker where
  phase : EffectPhase
  preContainerId : Option String
  preStartedAt : Option String
  postContainerId : Option String
  deriving DecidableEq, Repr

/-- A row of `idempotency_records`, for routes `κ`, requests `ρ` and response bodies `β`. -/
structure Record (κ ρ β : Type) where
  route : κ
  key : String
  request : ρ
  operationId : Uuid
  status : Status
  response : Option (Nat × β)
  errorCode : Option String
  effect : Option EffectMarker
  deriving DecidableEq, Repr

abbrev Ledger (κ ρ β : Type) := List (Record κ ρ β)

/-- A request with the operation its key was claimed for. -/
structure Claim (κ ρ : Type) where
  route : κ
  key : String
  operation : Uuid
  request : ρ
  deriving DecidableEq, Repr

/-- The two claims are for different rows. -/
def Claim.Apart {κ ρ : Type} (c d : Claim κ ρ) : Prop :=
  ¬(c.route = d.route ∧ c.key = d.key)

theorem Claim.Apart.symm {c d : Claim κ ρ} (h : c.Apart d) : d.Apart c :=
  fun h' => h ⟨h'.1.symm, h'.2.symm⟩

inductive ClaimResult (β : Type) where
  | new (operation : Uuid)
  | resume (operation : Uuid)
  | replay (operation : Uuid) (status : Nat) (body : β)
  deriving DecidableEq, Repr

inductive IdempotencyError where
  | keyInvalid
  | reused
  | inProgress
  | recordInvalid
  | database
  deriving DecidableEq, Repr

/-- `validate_key`: 16 to 128 printable ASCII characters without the space. -/
def validKey (value : String) : Bool :=
  16 ≤ value.toList.length && value.toList.length ≤ 128
    && value.toList.all fun c => 0x21 ≤ c.toNat && c.toNat ≤ 0x7e

namespace Record

variable {κ ρ β : Type} [DecidableEq κ]

/-- The row selected by `route=? AND key_hmac=?`. -/
def At (route : κ) (key : String) (r : Record κ ρ β) : Prop :=
  r.route = route ∧ r.key = key

instance (route : κ) (key : String) (r : Record κ ρ β) : Decidable (r.At route key) :=
  inferInstanceAs (Decidable (_ ∧ _))

end Record

namespace Ledger

variable {κ ρ β : Type} [DecidableEq κ]

/-- The row of a route and key. -/
def find (l : Ledger κ ρ β) (route : κ) (key : String) : Option (Record κ ρ β) :=
  l.find? fun r => r.At route key

/-- `UPDATE … WHERE route=? AND key_hmac=?`. -/
def update (l : Ledger κ ρ β) (route : κ) (key : String) (f : Record κ ρ β → Record κ ρ β) :
    Ledger κ ρ β :=
  l.map fun r => if r.At route key then f r else r

/-- `claim`, where `fresh` is the operation id drawn for a new record. -/
def claim [DecidableEq ρ] (l : Ledger κ ρ β) (route : κ) (key : String) (request : ρ)
    (fresh : Uuid) :
    Except IdempotencyError (ClaimResult β × Ledger κ ρ β) :=
  if !validKey key then .error .keyInvalid
  else
    match l.find route key with
    | none =>
      .ok (.new fresh, l ++ [⟨route, key, request, fresh, .pending, none, none, none⟩])
    | some r =>
      if r.request ≠ request then .error .reused
      else
        match r.status, r.response with
        | .succeeded, some (status, body) | .failed, some (status, body) =>
          .ok (.replay r.operationId status body, l)
        | .succeeded, none | .failed, none => .error .recordInvalid
        | .interrupted, _ =>
          .ok (.resume r.operationId, l.update route key fun r => { r with status := .pending })
        | .pending, _ => .error .inProgress

/-- What a service answers to a claim, and the state it is left in: `o` says how the statement
that writes the record ends, and `grant` is the state with the record. -/
def answered {W : Type} (o : Outcome) (w : W) (grant : ClaimResult β → Ledger κ ρ β → W)
    (claimed : Except IdempotencyError (ClaimResult β × Ledger κ ρ β)) :
    Except IdempotencyError (ClaimResult β) × W :=
  match claimed with
  | .error error => (.error error, w)
  | .ok (result, ledger) =>
    (match o with
      | .ok => .ok result
      | .failed _ => .error .database,
      if o.applied then grant result ledger else w)

/-- The record in its finished state. -/
def finished (status : Nat) (body : β) (errorCode : Option String) (r : Record κ ρ β) :
    Record κ ρ β :=
  { r with
    status := if status < 400 then .succeeded else .failed
    response := some (status, body)
    errorCode }

/-- The record, interrupted if it was pending. -/
def interrupted (r : Record κ ρ β) : Record κ ρ β :=
  if r.status = .pending then { r with status := .interrupted } else r

/-- `finish`: a status below 400 is a success. -/
def finish (l : Ledger κ ρ β) (route : κ) (key : String) (status : Nat) (body : β)
    (errorCode : Option String) : Ledger κ ρ β :=
  l.update route key (finished status body errorCode)

/-- `mark_interrupted`: only a pending record. -/
def markInterrupted (l : Ledger κ ρ β) (route : κ) (key : String) : Ledger κ ρ β :=
  l.update route key interrupted

/-- `interrupt_pending`, at startup. -/
def interruptPending (l : Ledger κ ρ β) : Ledger κ ρ β :=
  l.map interrupted

/-- A record outlives a collection unless it is finished, picked, and no artifact needs its
proof. -/
def outlives (protect : Record κ ρ β → Bool) (picked : Uuid → Bool) (r : Record κ ρ β) : Bool :=
  r.status = .pending || r.status = .interrupted || protect r || !picked r.operationId

/-- `gc_terminal_records`. -/
def collect (l : Ledger κ ρ β) (protect : Record κ ρ β → Bool) (picked : Uuid → Bool) :
    Ledger κ ρ β :=
  l.filter (outlives protect picked)

/-! ## What an update and a claim can do -/

/-- What an update of a row leaves alone. -/
def Advances (f : Record κ ρ β → Record κ ρ β) : Prop :=
  ∀ r, (f r).route = r.route ∧ (f r).key = r.key ∧ (f r).operationId = r.operationId ∧
    (f r).request = r.request

variable
  {r : Record κ ρ β} {f : Record κ ρ β → Record κ ρ β} {l : Ledger κ ρ β} {key : String} {route : κ}

theorem mem_update (h : r ∈ l.update route key f) : r ∈ l ∨ ∃ s ∈ l, r = f s := by
  obtain ⟨s, hs, rfl⟩ := List.mem_map.mp h
  split
  · exact .inr ⟨s, hs, rfl⟩
  · exact .inl hs

/-- An update changes the row it is for. -/
theorem find_update_self (hf : Advances f) :
    (l.update route key f).find route key = (l.find route key).map f := by
  induction l with
  | nil => rfl
  | cons r l ih =>
    unfold update find at ih ⊢
    rw [List.map_cons, List.find?_cons, List.find?_cons]
    by_cases h : r.At route key
    · have h' : (f r).At route key := ⟨(hf r).1.trans h.1, (hf r).2.1.trans h.2⟩
      simp [h, h']
    · simpa [h] using ih

/-- An update leaves the other rows alone. -/
theorem find_update_of_ne {route route' : κ} {key key' : String}
    (hf : Advances f) (hne : ¬(route = route' ∧ key = key')) :
    (l.update route key f).find route' key' = l.find route' key' := by
  induction l with
  | nil => rfl
  | cons r l ih =>
    unfold update find at ih ⊢
    rw [List.map_cons, List.find?_cons, List.find?_cons]
    by_cases h : r.At route key
    · have h' : ¬r.At route' key' := fun h' => hne ⟨h.1.symm.trans h'.1, h.2.symm.trans h'.2⟩
      have hf' : ¬(f r).At route' key' :=
        fun h'' => h' ⟨(hf r).1.symm.trans h''.1, (hf r).2.1.symm.trans h''.2⟩
      simpa [h, h', hf'] using ih
    · by_cases h' : r.At route' key'
      · simp [h, h']
      · simpa [h, h'] using ih

theorem find_some (h : l.find route key = some r) : r ∈ l ∧ r.At route key :=
  ⟨List.mem_of_find?_eq_some h, by simpa using List.find?_some h⟩

section Answered

omit [DecidableEq κ]

variable {W : Type} {w : W} {grant : ClaimResult β → Ledger κ ρ β → W}
  {claimed : Except IdempotencyError (ClaimResult β × Ledger κ ρ β)}

/-- However a claim is answered, the state is as it was or as a granted claim leaves it. -/
theorem answered_cases (o : Outcome) : (answered o w grant claimed).2 = w ∨
    ∃ result ledger, claimed = .ok (result, ledger) ∧
      (answered o w grant claimed).2 = grant result ledger := by
  cases claimed with
  | error error => exact .inl rfl
  | ok granted =>
    unfold answered
    dsimp only
    split
    · exact .inr ⟨_, _, rfl, rfl⟩
    · exact .inl rfl

/-- What holds before a claim, and of the state it is granted in, holds however its statement
ends; and who is told an operation finds its record. -/
theorem answered_rule {I : W → Prop} {J : Uuid → Bool → W → Prop} (o : Outcome) (hkept : I w)
    (hgranted : ∀ result ledger, claimed = .ok (result, ledger) → I (grant result ledger) ∧
      ∀ op resumed, result = (if resumed then .resume op else .new op) →
        J op resumed (grant result ledger)) :
    I (answered o w grant claimed).2 ∧ ∀ op resumed,
      (answered o w grant claimed).1 = .ok (if resumed then .resume op else .new op) →
        J op resumed (answered o w grant claimed).2 := by
  cases claimed with
  | error error => exact ⟨hkept, nofun⟩
  | ok granted =>
    obtain ⟨hnew, hadd⟩ := hgranted granted.1 granted.2 rfl
    cases o with
    | ok => exact ⟨hnew, fun op resumed heq => hadd op resumed (Except.ok.inj heq)⟩
    | failed applied =>
      cases applied with
      | true => exact ⟨hnew, nofun⟩
      | false => exact ⟨hkept, nofun⟩

theorem granted_cases {result : ClaimResult β} {op : Uuid} {resumed : Bool}
    (h : result = if resumed then .resume op else .new op) :
    result = .new op ∨ result = .resume op := by
  cases resumed with
  | true => exact .inr h
  | false => exact .inl h

end Answered

/-- A claim that is granted creates a record, reopens an interrupted one of the same
request, or changes nothing. -/
theorem claim_cases [DecidableEq ρ] {l l' : Ledger κ ρ β} {request : ρ}
    {fresh : Uuid} {result : ClaimResult β}
    (h : l.claim route key request fresh = .ok (result, l')) :
    (l.find route key = none ∧ result = .new fresh ∧
      l' = l ++ [⟨route, key, request, fresh, .pending, none, none, none⟩]) ∨
    (∃ r, l.find route key = some r ∧ r.request = request ∧ r.status = .interrupted ∧
      result = .resume r.operationId ∧
      l' = l.update route key fun r => { r with status := .pending }) ∨
    (∃ operation status body, result = .replay operation status body ∧ l' = l) := by
  unfold claim at h
  split at h
  · cases h
  split at h
  next hfind =>
    cases h
    exact .inl ⟨hfind, rfl, rfl⟩
  next r hfind =>
    split at h
    · cases h
    next hreq =>
      have hreq : r.request = request := Decidable.byContradiction hreq
      split at h
      all_goals cases h
      · exact .inr (.inr ⟨_, _, _, rfl, rfl⟩)
      · exact .inr (.inr ⟨_, _, _, rfl, rfl⟩)
      next _ hstatus => exact .inr (.inl ⟨r, hfind, hreq, hstatus, rfl, rfl⟩)

/-- A new operation has the id drawn for it. -/
theorem new_eq_fresh [DecidableEq ρ] {l l' : Ledger κ ρ β} {request : ρ} {fresh op : Uuid}
    (h : l.claim route key request fresh = .ok (.new op, l')) : op = fresh := by
  rcases claim_cases h with ⟨-, hnew, -⟩ | ⟨_, -, -, -, hresume, -⟩ | ⟨_, _, _, hreplay, -⟩
  · exact ClaimResult.new.inj hnew
  · cases hresume
  · cases hreplay

/-- A record after a claim was there, or is the new one, or is one that was reopened. -/
theorem mem_claim [DecidableEq ρ] {l l' : Ledger κ ρ β} {request : ρ}
    {fresh : Uuid} {result : ClaimResult β} {r : Record κ ρ β}
    (h : l.claim route key request fresh = .ok (result, l')) (hr : r ∈ l') :
    r ∈ l ∨ r = ⟨route, key, request, fresh, .pending, none, none, none⟩ ∨
      ∃ s ∈ l, r = { s with status := .pending } := by
  rcases claim_cases h with ⟨-, -, rfl⟩ | ⟨_, -, -, -, -, rfl⟩ | ⟨_, _, _, -, rfl⟩
  · exact (List.mem_append.mp hr).imp_right fun hnew => .inl (List.mem_singleton.mp hnew)
  · exact (mem_update hr).imp_right .inr
  · exact .inl hr

/-- The operation and the request of a record after a claim are those of a record before it, or
the claim's own. -/
theorem origin_claim [DecidableEq ρ] {l l' : Ledger κ ρ β} {request : ρ}
    {fresh : Uuid} {result : ClaimResult β} {r : Record κ ρ β}
    (h : l.claim route key request fresh = .ok (result, l')) (hr : r ∈ l') :
    (∃ s ∈ l, s.operationId = r.operationId ∧ s.request = r.request) ∨
      r.operationId = fresh ∧ r.request = request := by
  rcases mem_claim h hr with hr | rfl | ⟨s, hs, rfl⟩
  · exact .inl ⟨r, hr, rfl, rfl⟩
  · exact .inr ⟨rfl, rfl⟩
  · exact .inl ⟨s, hs, rfl, rfl⟩

/-- Every record of `l'` is one of `l`, in a later state: it keeps its row, its operation
and its request. -/
def Descends (l' l : Ledger κ ρ β) : Prop :=
  ∀ r ∈ l', ∃ s ∈ l, r.route = s.route ∧ r.key = s.key ∧ r.operationId = s.operationId ∧
    r.request = s.request

omit [DecidableEq κ] in
/-- The end of an operation leaves its identity alone. -/
theorem advances_finished (status : Nat) (body : β) (errorCode : Option String) :
    Advances (finished status body errorCode : Record κ ρ β → Record κ ρ β) :=
      fun _ => ⟨rfl, rfl, rfl, rfl⟩

omit [DecidableEq κ] in
theorem advances_interrupted : Advances (interrupted : Record κ ρ β → Record κ ρ β) := by
  intro r
  unfold interrupted
  split <;> exact ⟨rfl, rfl, rfl, rfl⟩

theorem descends_update (hf : Advances f) : (l.update route key f).Descends l := by
  intro r hr
  rcases mem_update hr with hr | ⟨s, hs, rfl⟩
  · exact ⟨r, hr, rfl, rfl, rfl, rfl⟩
  · exact ⟨s, hs, hf s⟩

omit [DecidableEq κ] in
theorem descends_interruptPending : l.interruptPending.Descends l := by
  intro r hr
  obtain ⟨s, hs, rfl⟩ := List.mem_map.mp hr
  exact ⟨s, hs, advances_interrupted s⟩

variable {cs : List (Claim κ ρ)}

variable {protect : Record κ ρ β → Bool} {picked : Uuid → Bool} {c : Claim κ ρ}

omit [DecidableEq κ] in
theorem descends_collect : (l.collect protect picked).Descends l :=
  fun r hr => ⟨r, (List.mem_filter.mp hr).1, rfl, rfl, rfl, rfl⟩

/-! ## Operations under way

An operation is under way between its claim and its end. While it is, its record is
pending, so no other request can claim its key. -/

/-- `c` is pending under its own operation id. -/
def Holds (l : Ledger κ ρ β) (c : Claim κ ρ) : Prop :=
  ∃ r, l.find c.route c.key = some r ∧ r.operationId = c.operation ∧ r.request = c.request ∧
    r.status = .pending

/-- Every operation of the list is under way, each under a key of its own. -/
structure Exclusive (l : Ledger κ ρ β) (cs : List (Claim κ ρ)) : Prop where
  holds : ∀ c ∈ cs, l.Holds c
  apart : cs.Pairwise Claim.Apart

theorem Holds.update {c d : Claim κ ρ}
    (h : l.Holds d) (hf : Advances f) (hne : c.Apart d) : (l.update c.route c.key f).Holds d := by
  obtain ⟨r, hr, rest⟩ := h
  exact ⟨r, by rw [find_update_of_ne hf hne, hr], rest⟩

/-- An update of another row leaves the operations under way pending. -/
theorem Exclusive.update {c : Claim κ ρ} (h : l.Exclusive cs)
    (hf : Advances f) (hne : ∀ d ∈ cs, c.Apart d) : (l.update c.route c.key f).Exclusive cs :=
  ⟨fun d hd => (h.holds d hd).update hf (hne d hd), h.apart⟩

theorem find_append : (l ++ [r]).find route key =
      (l.find route key).or (if r.At route key then some r else none) := by
  unfold find
  rw [List.find?_append, List.find?_singleton]
  simp

theorem Exclusive.append {l' : Ledger κ ρ β}
    (h : l.Exclusive cs) (hc : l'.Holds c) (hne : ∀ d ∈ cs, c.Apart d)
    (hkeep : ∀ d ∈ cs, l.Holds d → l'.Holds d) : l'.Exclusive (cs ++ [c]) := by
  refine ⟨fun d hd => ?_, List.pairwise_append.mpr ⟨h.apart, List.pairwise_singleton _ _,
    fun d hd e he => List.mem_singleton.mp he ▸ (hne d hd).symm⟩⟩
  rcases List.mem_append.mp hd with hd | hd
  · exact hkeep d hd (h.holds d hd)
  · exact List.mem_singleton.mp hd ▸ hc

theorem Exclusive.claim [DecidableEq ρ] {l l' : Ledger κ ρ β}
    {request : ρ} {fresh op : Uuid} {result : ClaimResult β}
    (h : l.Exclusive cs) (hclaim : l.claim route key request fresh = .ok (result, l'))
    (hop : result = .new op ∨ result = .resume op) :
    l'.Exclusive (cs ++ [⟨route, key, op, request⟩]) := by
  rcases claim_cases hclaim with ⟨hnone, hres, rfl⟩ | ⟨r, hr, hreq, hstatus, hres, rfl⟩ |
    ⟨_, _, _, hres, rfl⟩
  · obtain rfl : op = fresh := by
      rcases hop with hop | hop <;> simp [hop] at hres
      exact hres
    refine h.append ⟨⟨route, key, request, op, .pending, none, none, none⟩, ?_, rfl, rfl, rfl⟩ ?_ ?_
    · rw [find_append, hnone]
      simp [Record.At]
    · intro d hd heq
      obtain ⟨r, hr, -⟩ := h.holds d hd
      rw [← heq.1, ← heq.2, hnone] at hr
      cases hr
    · rintro d - ⟨r, hr, rest⟩
      exact ⟨r, by rw [find_append, hr]; rfl, rest⟩
  · obtain rfl : op = r.operationId := by
      rcases hop with hop | hop <;> simp [hop] at hres
      exact hres
    have hf : Advances fun r : Record κ ρ β => { r with status := .pending } :=
      fun _ => ⟨rfl, rfl, rfl, rfl⟩
    have hne : ∀ d ∈ cs, Claim.Apart ⟨route, key, r.operationId, request⟩ d := by
      intro d hd heq
      obtain ⟨s, hs, -, -, hpending⟩ := h.holds d hd
      have hsr : some s = some r := by rw [← hs, ← heq.1, ← heq.2, hr]
      cases hsr
      rw [hstatus] at hpending
      cases hpending
    refine h.append ⟨{ r with status := .pending }, ?_, rfl, hreq, rfl⟩ hne
      fun d hd hold => hold.update hf (hne d hd)
    rw [find_update_self hf, hr]
    rfl
  · rcases hop with hop | hop <;> simp [hop] at hres

theorem Holds.collect (h : l.Holds c) : (l.collect protect picked).Holds c := by
  obtain ⟨r, hr, hop, hreq, hpending⟩ := h
  refine ⟨r, ?_, hop, hreq, hpending⟩
  obtain ⟨hat, before, after, rfl, hbefore⟩ := List.find?_eq_some_iff_append.mp hr
  refine List.find?_eq_some_iff_append.mpr
    ⟨hat, before.filter (outlives protect picked), after.filter (outlives protect picked), ?_,
      fun s hs => hbefore s (List.mem_filter.mp hs).1⟩
  simp [Ledger.collect, outlives, hpending]

theorem Exclusive.others {f : α → Claim κ ρ} :
    ∀ {as : List α} {i : Nat} {a : α}, l.Exclusive (as.map f) → as[i]? = some a →
      ∀ d ∈ (as.eraseIdx i).map f, (f a).Apart d
  | e :: as, 0, a, h, hget, d, hd => by
    obtain rfl : e = a := by simpa using hget
    exact (List.pairwise_cons.mp h.apart).1 d hd
  | e :: as, i + 1, a, h, hget, d, hd => by
    obtain ⟨he, has⟩ := List.pairwise_cons.mp h.apart
    have hget : as[i]? = some a := by simpa using hget
    rcases List.mem_cons.mp hd with rfl | hd
    · exact (he _ (List.mem_map_of_mem (List.mem_of_getElem? hget))).symm
    · exact others ⟨fun c hc => h.holds c (List.mem_cons_of_mem _ hc), has⟩ hget d hd

theorem Exclusive.forget {ds : List (Claim κ ρ)} (h : l.Exclusive cs)
    (hsub : ds.Sublist cs) : l.Exclusive ds :=
  ⟨fun d hd => h.holds d (hsub.mem hd), h.apart.sublist hsub⟩

/-! ## The record as the proof of what was done

What is left of a deletion on disk names its operation; the row of that operation says how
far it got. -/

/-- `SELECT status,response_status,response_body`. -/
structure View (β : Type) where
  status : Status
  response : Option (Nat × β)
  deriving DecidableEq, Repr

/-- `… WHERE route=? AND operation_id=?`. -/
def view (l : Ledger κ ρ β) (route : κ) (operation : Uuid) : Option (View β) :=
  (l.find? fun r => r.route == route && r.operationId == operation).map fun r =>
    ⟨r.status, r.response⟩

/-- An artifact of the operation may be there: its record is open, or has succeeded with a
response that says so. The result tells which. -/
def owned (tells : β → Bool) : Option (View β) → Except IdempotencyError Bool
  | none => .error .recordInvalid
  | some r =>
    match r.status with
    | .pending | .interrupted => .ok false
    | .succeeded =>
      match r.response with
      | some (status, body) =>
        if status = 200 ∧ tells body then .ok true else .error .recordInvalid
      | none => .error .recordInvalid
    | .failed => .error .recordInvalid

/-- The operation has succeeded with a response that says so. -/
def proven (tells : β → Bool) : Option (View β) → Bool
  | some r =>
    r.status == .succeeded && match r.response with
      | some (status, body) => status == 200 && tells body
      | none => false
  | none => false

theorem owned_ok_true {tells : β → Bool} {row : Option (View β)} :
    owned tells row = .ok true ↔ proven tells row = true := by
  rcases row with _ | ⟨status, response⟩
  · simp [owned, proven]
  · cases status <;> cases response <;> simp [owned, proven]

/-- The row once `interrupt_pending` has run. -/
def View.interrupt (v : View β) : View β :=
  if v.status = .pending then { v with status := .interrupted } else v

theorem view_interruptPending (l : Ledger κ ρ β) (route : κ) (operation : Uuid) :
    l.interruptPending.view route operation = (l.view route operation).map View.interrupt := by
  unfold view interruptPending
  rw [List.find?_map, Option.map_map, Option.map_map]
  have hat : (fun r : Record κ ρ β => r.route == route && r.operationId == operation) ∘ interrupted
      = fun r => r.route == route && r.operationId == operation := by
    funext r
    simp [advances_interrupted r]
  rw [hat]
  congr 1
  funext r
  unfold interrupted View.interrupt
  dsimp only [Function.comp]
  split <;> simp_all

theorem owned_interrupt (tells : β → Bool) (row : Option (View β)) :
    owned tells (row.map View.interrupt) = owned tells row := by
  rcases row with _ | ⟨status, response⟩
  · rfl
  · cases status <;> rfl

theorem proven_interrupt (tells : β → Bool) (row : Option (View β)) :
    proven tells (row.map View.interrupt) = proven tells row := by
  rcases row with _ | ⟨status, response⟩
  · rfl
  · cases status <;> rfl

end Ledger

end SoloDock.Mutation
