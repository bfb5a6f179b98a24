import SoloDock.Lib.History
import SoloDock.Mutation.Rows

/-!
# Attempts at an operation

Handlers claim a key, work, and make one last statement on their record: they finish it,
or mark it interrupted. Those statements are separate transactions, and between any two
of them other handlers claim and finish, the process restarts, and old records are
collected. `finish` does not ask whether the record is still pending.

`Attempts` is the table with the attempts that are under way, `Act` are the statements
and `step` is what one of them does; a transaction that does not commit is rolled back.
An attempt ends with its first `finish` that commits or with its `mark_interrupted`; it may
also end without a word, when its client is gone. Deployments are claimed with their
response in one transaction, and run on afterwards.

`Sound` is what every statement keeps, and `Continues` is what becomes of one record as long
as it is not collected. `operations_run_once` is the result.
-/

namespace SoloDock.Mutation

open Lib
open List (mem_append mem_filter mem_map mem_singleton)
open Ledger (claim_cases find_append find_some mem_claim)

/-- `actor`: a poll claims its key as the system, everything else as the administrator. -/
inductive Actor where
  | admin
  | system
  deriving DecidableEq, Repr

namespace Status

/-- The statuses in which a record has its response. -/
def terminal : Status → Bool
  | succeeded => true
  | failed => true
  | pending => false
  | interrupted => false

end Status

namespace ClaimResult

variable {β : Type}

/-- The operation a granted claim is for. -/
def operation : ClaimResult β → Uuid
  | new operation => operation
  | resume operation => operation
  | replay operation _ _ => operation

def isNew : ClaimResult β → Bool
  | new _ => true
  | _ => false

end ClaimResult

variable {key : String}

namespace Ledger

variable {κ ρ β : Type} [DecidableEq κ] [DecidableEq ρ]

/-- `claim_deployment`: the record is written with its response, together with the
deployment. `idle` says that the app has no queued or running deployment, of which there is
at most one. -/
def claimDeployment (l : Ledger κ ρ β) (route : κ) (key : String) (request : ρ) (fresh : Uuid)
    (idle : Bool) (body : Uuid → β) : Except IdempotencyError (ClaimResult β × Ledger κ ρ β) :=
  if !validKey key then .error .keyInvalid
  else
    match l.find route key with
    | none =>
      if idle then
        .ok (.new fresh,
          l ++ [⟨route, key, request, fresh, .succeeded, some (202, body fresh), none, none⟩])
      else .error .inProgress
    | some r =>
      if r.request ≠ request then .error .reused
      else
        match r.status, r.response with
        | .succeeded, some (status, body) | .failed, some (status, body) =>
          .ok (.replay r.operationId status body, l)
        | .succeeded, none | .failed, none => .error .recordInvalid
        | .interrupted, _ | .pending, _ => .error .inProgress

variable {l l' : Ledger κ ρ β} {route : κ} {request : ρ} {fresh : Uuid}
  {result : ClaimResult β}

/-- A deployment's claim that is granted adds a finished record, or changes nothing. -/
theorem claimDeployment_cases {idle : Bool} {body : Uuid → β}
    (h : l.claimDeployment route key request fresh idle body = .ok (result, l')) :
    (l.find route key = none ∧ result = .new fresh ∧
      l' = l ++ [⟨route, key, request, fresh, .succeeded, some (202, body fresh), none, none⟩]) ∨
    (∃ operation status body, result = .replay operation status body ∧ l' = l) := by
  unfold claimDeployment at h
  split at h
  · cases h
  · split at h
    next hfind =>
      split at h
      · cases h
        exact .inl ⟨hfind, rfl, rfl⟩
      · cases h
    next r hfind =>
      split at h
      · cases h
      · split at h
        all_goals cases h
        · exact .inr ⟨_, _, _, rfl, rfl⟩
        · exact .inr ⟨_, _, _, rfl, rfl⟩

theorem validKey_of_claim
    (h : l.claim route key request fresh = .ok (result, l')) : validKey key = true := by
  unfold claim at h
  split at h
  · cases h
  next hkey => simpa using hkey

theorem validKey_of_claimDeployment {idle : Bool} {body : Uuid → β}
    (h : l.claimDeployment route key request fresh idle body = .ok (result, l')) :
    validKey key = true := by
  unfold claimDeployment at h
  split at h
  · cases h
  next hkey => simpa using hkey

omit [DecidableEq ρ] in
theorem find_map {g : Record κ ρ β → Record κ ρ β} (hg : Advances g)
    (route : κ) (key : String) : find (l.map g) route key = (l.find route key).map g := by
  unfold find
  rw [List.find?_map]
  have hat : (fun r : Record κ ρ β => decide (r.At route key)) ∘ g = fun r =>
    decide (r.At route key) := by
    funext r
    refine decide_eq_decide.mpr ?_
    unfold Record.At
    rw [(hg r).1, (hg r).2.1]
  rw [hat]

/-- The marker of the operation's effect is written while the record is pending. -/
def marked (effect : EffectMarker) (r : Record κ ρ β) : Record κ ρ β :=
  if r.status = .pending then { r with effect := some effect } else r

omit [DecidableEq κ] [DecidableEq ρ] in
theorem advances_marked (effect : EffectMarker) :
    Advances (marked effect : Record κ ρ β → Record κ ρ β) := by
  intro r
  unfold marked
  split <;> exact ⟨rfl, rfl, rfl, rfl⟩

end Ledger

/-- The table, the attempts under way, and the next operation id. -/
structure Attempts (κ ρ β : Type) where
  ledger : Ledger (Actor × κ) ρ β
  /-- Handlers past their claim that have not made their last statement. -/
  running : List (Claim (Actor × κ) ρ)
  /-- Deployments past their claim. -/
  deploying : List (Claim (Actor × κ) ρ)
  next : Uuid

namespace Attempts

/-- One statement, or one thing that befalls the attempts. `index` is the attempt that makes
it. -/
inductive Act (κ ρ β : Type) where
  | claim (route : κ) (key : String) (request : ρ) (commits : Bool)
  | claimDeployment (actor : Actor) (route : κ) (key : String) (request : ρ) (idle : Bool)
      (body : Uuid → β) (commits : Bool)
  | markEffect (index : Nat) (effect : EffectMarker)
  | finish (index status : Nat) (body : β) (errorCode : Option String) (commits : Bool)
  | markInterrupted (index : Nat) (commits : Bool)
  | leave (index : Nat)
  | deployed (index : Nat)
  | restart (commits : Bool)
  | collect (protect : Record (Actor × κ) ρ β → Bool) (picked : Uuid → Bool)

variable {κ ρ β : Type} [DecidableEq κ] [DecidableEq ρ]

/-- The row a claim is for, and its request. -/
def Act.asks : Act κ ρ β → Option ((Actor × κ) × String × ρ)
  | .claim route key request true => some ((.admin, route), key, request)
  | .claimDeployment actor route key request _ _ true => some ((actor, route), key, request)
  | _ => none

/-- What a claim finds and writes. -/
def granted (s : Attempts κ ρ β) :
    Act κ ρ β → Except IdempotencyError (ClaimResult β × Ledger (Actor × κ) ρ β)
  | .claim route key request true => s.ledger.claim (.admin, route) key request s.next
  | .claimDeployment actor route key request idle body true =>
    s.ledger.claimDeployment (actor, route) key request s.next idle body
  | _ => .error .database

/-- What a claim answers. -/
def answer (s : Attempts κ ρ β) (a : Act κ ρ β) : Except IdempotencyError (ClaimResult β) :=
  (s.granted a).map Prod.fst

def step (s : Attempts κ ρ β) : Act κ ρ β → Attempts κ ρ β
  | a@(.claim route key request _) =>
    match s.granted a with
    | .ok (.new operation, l) | .ok (.resume operation, l) =>
      { s with
        ledger := l
        running := s.running ++ [⟨(.admin, route), key, operation, request⟩]
        next := s.next + 1 }
    | .ok (.replay _ _ _, _) | .error _ => s
  | a@(.claimDeployment actor route key request _ _ _) =>
    match s.granted a with
    | .ok (.new operation, l) =>
      { s with
        ledger := l
        deploying := s.deploying ++ [⟨(actor, route), key, operation, request⟩]
        next := s.next + 1 }
    | .ok (.resume _, _) | .ok (.replay _ _ _, _) | .error _ => s
  | .markEffect index effect =>
    match s.running[index]? with
    | none => s
    | some c =>
      { s with ledger := s.ledger.update (.admin, c.route.2) c.key (Ledger.marked effect) }
  | .finish index status body errorCode commits =>
    match s.running[index]? with
    | none => s
    | some c =>
      if commits then
        { s with
          ledger := s.ledger.finish (.admin, c.route.2) c.key status body errorCode
          running := s.running.eraseIdx index }
      else s
  | .markInterrupted index commits =>
    match s.running[index]? with
    | none => s
    | some c =>
      { s with
        ledger := if commits then s.ledger.markInterrupted (.admin, c.route.2) c.key else s.ledger
        running := s.running.eraseIdx index }
  | .leave index => { s with running := s.running.eraseIdx index }
  | .deployed index => { s with deploying := s.deploying.eraseIdx index }
  | .restart commits =>
    { s with
      ledger := if commits then s.ledger.interruptPending else s.ledger
      running := []
      deploying := [] }
  | .collect protect picked => { s with ledger := s.ledger.collect protect picked }

/-- An empty table, before the first request. -/
def start : Attempts κ ρ β := ⟨[], [], [], 0⟩

/-- The state after a list of statements. -/
abbrev after (acts : List (Act κ ρ β)) : Attempts κ ρ β := play step start acts

/-! ## What every statement keeps -/

structure Sound (s : Attempts κ ρ β) : Prop where
  rows : s.ledger.Rows s.next
  valid : ∀ r ∈ s.ledger, validKey r.key
  answered : ∀ r ∈ s.ledger, r.status.terminal → r.response.isSome
  /-- Only handlers of the administrator's requests run. -/
  admin : ∀ c ∈ s.running, c.route.1 = .admin
  exclusive : s.ledger.Exclusive s.running
  /-- The record of a deployment has its response from the start. -/
  deployed : ∀ d ∈ s.deploying, d.operation < s.next ∧
    ∀ r ∈ s.ledger, r.operationId = d.operation → r.status.terminal
  distinct : s.deploying.Pairwise fun c d => c.operation ≠ d.operation

omit [DecidableEq ρ] in
theorem sound_start : Sound (start : Attempts κ ρ β) where
  rows := .nil
  valid := nofun
  answered := nofun
  admin := nofun
  exclusive := ⟨nofun, .nil⟩
  deployed := nofun
  distinct := .nil

/-- A statement on one row that takes no response away. -/
structure Tame (f : Record (Actor × κ) ρ β → Record (Actor × κ) ρ β) : Prop where
  advances : Ledger.Advances f
  terminal : ∀ r, r.status.terminal → (f r).status.terminal
  answered : ∀ r, (r.status.terminal → r.response.isSome) → (f r).status.terminal →
    (f r).response.isSome

omit [DecidableEq κ] [DecidableEq ρ] in
theorem tame_marked (effect : EffectMarker) :
    Tame (Ledger.marked effect : Record (Actor × κ) ρ β → _) where
  advances := Ledger.advances_marked effect
  terminal := by
    intro r h
    unfold Ledger.marked
    split <;> exact h
  answered := by
    intro r hr h
    unfold Ledger.marked at h ⊢
    split at h
    next hpending =>
      rw [if_pos hpending]
      exact hr h
    next hpending =>
      rw [if_neg hpending]
      exact hr h

omit [DecidableEq κ] [DecidableEq ρ] in
theorem tame_finished (status : Nat) (body : β) (errorCode : Option String) :
    Tame (Ledger.finished status body errorCode : Record (Actor × κ) ρ β → _) where
  advances := Ledger.advances_finished status body errorCode
  terminal := by
    intro r h
    unfold Ledger.finished
    dsimp only
    split <;> rfl
  answered := fun _ _ _ => rfl

omit [DecidableEq κ] [DecidableEq ρ] in
theorem tame_interrupted : Tame (Ledger.interrupted : Record (Actor × κ) ρ β → _) where
  advances := Ledger.advances_interrupted
  terminal := by
    intro r h
    unfold Ledger.interrupted
    split
    next hpending =>
      rw [hpending] at h
      cases h
    · exact h
  answered := by
    intro r hr h
    unfold Ledger.interrupted at h ⊢
    split at h
    · cases h
    next hpending =>
      rw [if_neg hpending]
      exact hr h

variable {l : Ledger (Actor × κ) ρ β} {f : Record (Actor × κ) ρ β → Record (Actor × κ) ρ β}
  {route : Actor × κ} {g : Record (Actor × κ) ρ β → Record (Actor × κ) ρ β}

namespace Sound

variable {s : Attempts κ ρ β}

omit [DecidableEq ρ]

theorem change (h : Sound s) (hg : Tame g)
    {running deploying : List (Claim (Actor × κ) ρ)} (hrun : running.Sublist s.running)
    (hdeploy : deploying.Sublist s.deploying) (hheld : Ledger.Exclusive (s.ledger.map g) running) :
    Sound ⟨s.ledger.map g, running, deploying, s.next⟩ where
  rows := h.rows.map hg.advances
  valid := by
    intro r hr
    obtain ⟨r', hr', rfl⟩ := mem_map.mp hr
    rw [(hg.advances r').2.1]
    exact h.valid r' hr'
  answered := by
    intro r hr hterminal
    obtain ⟨r', hr', rfl⟩ := mem_map.mp hr
    exact hg.answered r' (h.answered r' hr') hterminal
  admin := fun c hc => h.admin c (hrun.mem hc)
  exclusive := hheld
  deployed := by
    intro d hd
    obtain ⟨hlt, hrow⟩ := h.deployed d (hdeploy.mem hd)
    refine ⟨hlt, fun r hr hop => ?_⟩
    obtain ⟨r', hr', rfl⟩ := mem_map.mp hr
    rw [(hg.advances r').2.2.1] at hop
    exact hg.terminal r' (hrow r' hr' hop)
  distinct := h.distinct.sublist hdeploy

theorem tame_at (hf : Tame f)
    (route : Actor × κ) (key : String) :
    Tame fun r : Record (Actor × κ) ρ β => if r.At route key then f r else r where
  advances := by
    intro r
    dsimp only
    split
    · exact hf.advances r
    · exact ⟨rfl, rfl, rfl, rfl⟩
  terminal := by
    intro r h
    split
    · exact hf.terminal r h
    · exact h
  answered := by
    intro r hr h
    split at h
    next hat =>
      rw [if_pos hat]
      exact hf.answered r hr h
    next hat =>
      rw [if_neg hat]
      exact hr h

section

variable (h : Sound s)

include h

theorem close {index : Nat} {c : Claim (Actor × κ) ρ} (hget : s.running[index]? = some c)
    (hf : Tame f) :
    Sound ⟨s.ledger.update (.admin, c.route.2) c.key f, s.running.eraseIdx index, s.deploying,
      s.next⟩ := by
  have hroute : ((.admin, c.route.2) : Actor × κ) = c.route := by
    rw [← h.admin c (List.mem_of_getElem? hget)]
  have hothers : ∀ d ∈ s.running.eraseIdx index, c.Apart d := by
    have hmap : s.ledger.Exclusive (s.running.map id) := by
      rw [List.map_id]
      exact h.exclusive
    intro d hd
    exact hmap.others hget d (by rwa [List.map_id])
  have hrest : s.ledger.Exclusive (s.running.eraseIdx index) :=
    h.exclusive.forget (List.eraseIdx_sublist _ _)
  rw [hroute]
  exact h.change (tame_at hf c.route c.key) (List.eraseIdx_sublist _ _) (List.Sublist.refl _)
    (hrest.update hf.advances hothers)

theorem markEffect (c : Claim (Actor × κ) ρ) (effect : EffectMarker) : Sound { s with
      ledger := s.ledger.update (.admin, c.route.2) c.key (Ledger.marked effect) } := by
  refine h.change (tame_at (tame_marked effect) _ _) (List.Sublist.refl _) (List.Sublist.refl _)
    ⟨fun d hd => ?_, h.exclusive.apart⟩
  obtain ⟨r, hr, hop, hreq, hpending⟩ := h.exclusive.holds d hd
  by_cases hat : ((.admin, c.route.2) : Actor × κ) = d.route ∧ c.key = d.key
  · refine ⟨Ledger.marked effect r, ?_, ?_, ?_, ?_⟩
    · have hself : (s.ledger.update d.route d.key (Ledger.marked effect)).find d.route d.key =
          (s.ledger.find d.route d.key).map (Ledger.marked effect) :=
        Ledger.find_update_self (Ledger.advances_marked effect)
      rw [hr] at hself
      rw [hat.1, hat.2]
      exact hself
    · exact (Ledger.advances_marked effect r).2.2.1.trans hop
    · exact (Ledger.advances_marked effect r).2.2.2.trans hreq
    · unfold Ledger.marked
      rw [if_pos hpending]
      exact hpending
  · exact ⟨r, (Ledger.find_update_of_ne (Ledger.advances_marked effect) hat).trans hr, hop, hreq,
      hpending⟩

theorem leave (index : Nat) : Sound { s with running := s.running.eraseIdx index } :=
  ⟨h.rows, h.valid, h.answered, fun c hc => h.admin c (List.mem_of_mem_eraseIdx hc),
    h.exclusive.forget (List.eraseIdx_sublist _ _), h.deployed, h.distinct⟩

theorem restart (commits : Bool) :
    Sound ⟨if commits then s.ledger.interruptPending else s.ledger, [], [], s.next⟩ := by
  cases commits with
  | true =>
    exact h.change tame_interrupted (List.nil_sublist _) (List.nil_sublist _) ⟨nofun, .nil⟩
  | false => exact ⟨h.rows, h.valid, h.answered, nofun, ⟨nofun, .nil⟩, nofun, .nil⟩

theorem collect (protect : Record (Actor × κ) ρ β → Bool) (picked : Uuid → Bool) :
    Sound { s with ledger := s.ledger.collect protect picked } where
  rows := h.rows.collect protect picked
  valid := fun r hr => h.valid r (mem_filter.mp hr).1
  answered := fun r hr => h.answered r (mem_filter.mp hr).1
  admin := h.admin
  exclusive := ⟨fun c hc => (h.exclusive.holds c hc).collect, h.exclusive.apart⟩
  deployed := fun d hd =>
    ⟨(h.deployed d hd).1, fun r hr => (h.deployed d hd).2 r (mem_filter.mp hr).1⟩
  distinct := h.distinct

theorem claim [DecidableEq ρ] {route : κ} {request : ρ} {op : Uuid}
    {result : ClaimResult β}
    (hclaim : s.ledger.claim (.admin, route) key request s.next = .ok (result, l))
    (hop : result = .new op ∨ result = .resume op) :
    Sound ⟨l, s.running ++ [⟨(.admin, route), key, op, request⟩], s.deploying, s.next + 1⟩ where
  rows := h.rows.claim (Nat.le_refl _) hclaim
  valid := by
    intro r hr
    have hkey := Ledger.validKey_of_claim hclaim
    rcases mem_claim hclaim hr with hr | rfl | ⟨r', hr', rfl⟩
    · exact h.valid r hr
    · exact hkey
    · exact h.valid r' hr'
  answered := by
    intro r hr hterminal
    rcases mem_claim hclaim hr with hr | rfl | ⟨r', -, rfl⟩
    · exact h.answered r hr hterminal
    · cases hterminal
    · cases hterminal
  admin := by
    intro c hc
    rcases mem_append.mp hc with hc | hc
    · exact h.admin c hc
    · cases mem_singleton.mp hc
      rfl
  exclusive := h.exclusive.claim hclaim hop
  deployed := by
    intro d hd
    obtain ⟨hlt, hrow⟩ := h.deployed d hd
    refine ⟨Nat.lt_succ_of_lt hlt, fun r hr hrop => ?_⟩
    rcases claim_cases hclaim with ⟨-, -, rfl⟩ | ⟨r0, hr0, -, hopen, -, rfl⟩ | ⟨_, _, _, -, rfl⟩
    · rcases mem_append.mp hr with hr | hr
      · exact hrow r hr hrop
      · -- the fresh operation is none of the deployments'
        cases mem_singleton.mp hr
        exact absurd hrop.symm (Nat.ne_of_lt hlt)
    · obtain ⟨r', hr', heq⟩ := mem_map.mp hr
      split at heq
      next hat =>
        -- the row that is reopened was interrupted, so it is none of the deployments'
        have hfound := h.rows.find_of_at hr' hat
        rw [hr0] at hfound
        cases hfound
        have hterminal := hrow r0 hr' (by rw [← hrop, ← heq])
        rw [hopen] at hterminal
        cases hterminal
      · exact heq ▸ hrow r' hr' (by rw [← hrop, ← heq])
    · exact hrow r hr hrop
  distinct := h.distinct

theorem claimDeployment [DecidableEq ρ] {request : ρ} {idle : Bool} {body : Uuid → β} {op : Uuid}
    (hclaim : s.ledger.claimDeployment route key request s.next idle body = .ok (.new op, l)) :
    Sound ⟨l, s.running, s.deploying ++ [⟨route, key, op, request⟩], s.next + 1⟩ := by
  rcases Ledger.claimDeployment_cases hclaim with ⟨hnone, hnew, rfl⟩ | ⟨_, _, _, hnew, -⟩
  · cases hnew
    have hfresh : ∀ r ∈ s.ledger, r.operationId ≠ s.next := fun r hr =>
      Nat.ne_of_lt (h.rows.below r hr)
    exact {
      rows := h.rows.append
        (r := ⟨route, key, request, s.next, .succeeded, some (202, body s.next), none, none⟩)
        (Nat.le_refl _) hnone
      valid := by
        intro r hr
        rcases mem_append.mp hr with hr | hr
        · exact h.valid r hr
        · cases mem_singleton.mp hr
          exact Ledger.validKey_of_claimDeployment hclaim
      answered := by
        intro r hr hterminal
        rcases mem_append.mp hr with hr | hr
        · exact h.answered r hr hterminal
        · cases mem_singleton.mp hr
          rfl
      admin := h.admin
      exclusive := by
        refine ⟨fun c hc => ?_, h.exclusive.apart⟩
        obtain ⟨r, hr, hrest⟩ := h.exclusive.holds c hc
        exact ⟨r, by rw [find_append, hr]; rfl, hrest⟩
      deployed := by
        intro d hd
        rcases mem_append.mp hd with hd | hd
        · obtain ⟨hlt, hrow⟩ := h.deployed d hd
          refine ⟨Nat.lt_succ_of_lt hlt, fun r hr hop => ?_⟩
          rcases mem_append.mp hr with hr | hr
          · exact hrow r hr hop
          · cases mem_singleton.mp hr
            rfl
        · cases mem_singleton.mp hd
          refine ⟨Nat.lt_succ_self _, fun r hr hop => ?_⟩
          rcases mem_append.mp hr with hr | hr
          · exact absurd hop (hfresh r hr)
          · cases mem_singleton.mp hr
            rfl
      distinct := by
        refine List.pairwise_append.mpr ⟨h.distinct, List.pairwise_singleton _ _, ?_⟩
        intro c hc d hd
        cases mem_singleton.mp hd
        exact Nat.ne_of_lt (h.deployed c hc).1 }
  · cases hnew

end

end Sound

theorem sound_step {s : Attempts κ ρ β} (h : Sound s) (a : Act κ ρ β) : Sound (s.step a) := by
  cases a with
  | claim route key request commits =>
    cases commits with
    | false => exact h
    | true =>
      unfold step
      dsimp only
      split
      next operation l hclaim => exact h.claim hclaim (.inl rfl)
      next operation l hclaim => exact h.claim hclaim (.inr rfl)
      · exact h
      · exact h
  | claimDeployment actor route key request idle body commits =>
    cases commits with
    | false => exact h
    | true =>
      unfold step
      dsimp only
      split
      next operation l hclaim => exact h.claimDeployment hclaim
      · exact h
      · exact h
      · exact h
  | markEffect index effect =>
    unfold step
    dsimp only
    split
    · exact h
    next c hget => exact h.markEffect c effect
  | finish index status body errorCode commits =>
    unfold step
    dsimp only
    split
    · exact h
    next c hget =>
      cases commits with
      | false => exact h
      | true => exact h.close hget (tame_finished status body errorCode)
  | markInterrupted index commits =>
    unfold step
    dsimp only
    split
    · exact h
    next c hget =>
      cases commits with
      | false => exact h.leave index
      | true => exact h.close hget tame_interrupted
  | leave index => exact h.leave index
  | deployed index =>
    exact ⟨h.rows, h.valid, h.answered, h.admin, h.exclusive,
      fun d hd => h.deployed d (List.mem_of_mem_eraseIdx hd),
      h.distinct.sublist (List.eraseIdx_sublist _ _)⟩
  | restart commits => exact h.restart commits
  | collect protect picked => exact h.collect protect picked

/-- Every history of attempts is sound. -/
theorem sound_after (acts : List (Act κ ρ β)) : Sound (after acts) := by
  have hall : ∀ (acts : List (Act κ ρ β)) (s : Attempts κ ρ β), Sound s →
    Sound (play step s acts) := by
    intro acts
    induction acts with
    | nil => exact fun s h => h
    | cons a acts ih => exact fun s h => ih (s.step a) (sound_step h a)
  exact hall acts start sound_start

omit [DecidableEq ρ] in
/-- No two attempts work on one operation. -/
theorem Sound.alone {s : Attempts κ ρ β} (h : Sound s) :
    (s.running ++ s.deploying).Pairwise fun c d => c.operation ≠ d.operation := by
  refine List.pairwise_append.mpr ⟨?_, h.distinct, ?_⟩
  · -- handlers with one operation would hold one row, and so one key
    refine h.exclusive.apart.imp_of_mem fun {c d} hc hd hapart hop => ?_
    obtain ⟨r, hr, hrop, -⟩ := h.exclusive.holds c hc
    obtain ⟨hfound, -, -⟩ := h.rows.pending (h.exclusive.holds d hd) (find_some hr).1
      (hrop.trans hop)
    have hat := (find_some hr).2
    have hat' := (find_some hfound).2
    exact hapart ⟨hat.1.symm.trans hat'.1, hat.2.symm.trans hat'.2⟩
  · intro c hc d hd hop
    obtain ⟨r, hr, hrop, -, hpending⟩ := h.exclusive.holds c hc
    have hterminal := (h.deployed d hd).2 r (find_some hr).1 (hrop.trans hop)
    rw [hpending] at hterminal
    cases hterminal

/-! ## What becomes of one record -/

/-- The later record is the same operation's, and has the response it had. -/
structure Continues (r r' : Record (Actor × κ) ρ β) : Prop where
  operation : r'.operationId = r.operationId
  request : r'.request = r.request
  kept : r.status.terminal → r'.status = r.status ∧ r'.response = r.response

/-- The statement does not collect the record. -/
def Spares (route : Actor × κ) (key : String) (s : Attempts κ ρ β) : Act κ ρ β → Prop
  | .collect protect picked =>
    ∀ r, s.ledger.find route key = some r → Ledger.outlives protect picked r = true
  | _ => True

section Continues

variable {s : Attempts κ ρ β} {r : Record (Actor × κ) ρ β}

omit [DecidableEq κ] [DecidableEq ρ] in
theorem Continues.refl (r : Record (Actor × κ) ρ β) :
    Continues r r := ⟨rfl, rfl, fun _ => ⟨rfl, rfl⟩⟩

omit [DecidableEq κ] [DecidableEq ρ] in
theorem Continues.trans {r r' r'' : Record (Actor × κ) ρ β} (h : Continues r r')
    (h' : Continues r' r'') : Continues r r'' where
  operation := h'.operation.trans h.operation
  request := h'.request.trans h.request
  kept := by
    intro hterminal
    obtain ⟨hstatus, hresponse⟩ := h.kept hterminal
    obtain ⟨hstatus', hresponse'⟩ := h'.kept (by rwa [hstatus])
    exact ⟨hstatus'.trans hstatus, hresponse'.trans hresponse⟩

omit [DecidableEq ρ] in
theorem continues_map (hg : Ledger.Advances g) (hr : l.find route key = some r)
    (hkept : r.status.terminal → (g r).status = r.status ∧ (g r).response = r.response) :
    ∃ r', Ledger.find (l.map g) route key = some r' ∧ Continues r r' := by
  refine ⟨g r, ?_, (hg r).2.2.1, (hg r).2.2.2, hkept⟩
  rw [Ledger.find_map hg, hr]
  rfl

omit [DecidableEq ρ] in
/-- A statement of a handler under way: if it is on the record, the record is pending. -/
theorem Sound.continues_update (h : Sound s) {index : Nat} {c : Claim (Actor × κ) ρ}
    (hget : s.running[index]? = some c) (hf : Ledger.Advances f)
    (hr : s.ledger.find route key = some r) :
    ∃ r', (s.ledger.update (.admin, c.route.2) c.key f).find route key = some r' ∧
      Continues r r' := by
  have hmem := List.mem_of_getElem? hget
  have hadvances : Ledger.Advances fun r : Record (Actor × κ) ρ β =>
      if r.At (.admin, c.route.2) c.key then f r else r := by
    intro r
    dsimp only
    split
    · exact hf r
    · exact ⟨rfl, rfl, rfl, rfl⟩
  refine continues_map hadvances hr fun hterminal => ?_
  split
  next hat =>
    obtain ⟨r0, hr0, -, -, hpending⟩ := h.exclusive.holds c hmem
    have hroute : ((.admin, c.route.2) : Actor × κ) = c.route := by
      rw [← h.admin c hmem]
    rw [hroute] at hat
    have hsame := h.rows.find_of_at (find_some hr).1 hat
    rw [hr0] at hsame
    cases hsame
    rw [hpending] at hterminal
    cases hterminal
  · exact ⟨rfl, rfl⟩

theorem Sound.continues_claim (h : Sound s) {route' : Actor × κ} {key' : String} {request : ρ}
    {result : ClaimResult β} (hclaim : s.ledger.claim route' key' request s.next = .ok (result, l))
    (hr : s.ledger.find route key = some r) :
    ∃ r', l.find route key = some r' ∧ Continues r r' := by
  rcases claim_cases hclaim with ⟨-, -, rfl⟩ | ⟨r0, hr0, -, hopen, -, rfl⟩ | ⟨_, _, _, -, rfl⟩
  · refine ⟨r, ?_, .refl r⟩
    rw [find_append, hr]
    rfl
  · have hadvances : Ledger.Advances fun r : Record (Actor × κ) ρ β =>
        if r.At route' key' then { r with status := .pending } else r := by
      intro r
      dsimp only
      split <;> exact ⟨rfl, rfl, rfl, rfl⟩
    refine continues_map hadvances hr fun hterminal => ?_
    split
    next hat =>
      have hsame := h.rows.find_of_at (find_some hr).1 hat
      rw [hr0] at hsame
      cases hsame
      rw [hopen] at hterminal
      cases hterminal
    · exact ⟨rfl, rfl⟩
  · exact ⟨r, hr, .refl r⟩

theorem continues_step (h : Sound s) (a : Act κ ρ β) (hspare : Spares route key s a)
    (hr : s.ledger.find route key = some r) :
    ∃ r', (s.step a).ledger.find route key = some r' ∧ Continues r r' := by
  have hsame : ∃ r', s.ledger.find route key = some r' ∧ Continues r r' := ⟨r, hr, .refl r⟩
  cases a with
  | claim route' key' request commits =>
    cases commits with
    | false => exact hsame
    | true =>
      unfold step
      dsimp only
      split
      next operation l hclaim => exact h.continues_claim hclaim hr
      next operation l hclaim => exact h.continues_claim hclaim hr
      · exact hsame
      · exact hsame
  | claimDeployment actor route' key' request idle body commits =>
    cases commits with
    | false => exact hsame
    | true =>
      unfold step
      dsimp only
      split
      next operation l hclaim =>
        rcases Ledger.claimDeployment_cases hclaim with ⟨-, -, rfl⟩ | ⟨_, _, _, hnew, -⟩
        · refine ⟨r, ?_, .refl r⟩
          rw [find_append, hr]
          rfl
        · cases hnew
      · exact hsame
      · exact hsame
      · exact hsame
  | markEffect index effect =>
    unfold step
    dsimp only
    split
    · exact hsame
    next c hget => exact h.continues_update hget (Ledger.advances_marked effect) hr
  | finish index status body errorCode commits =>
    unfold step
    dsimp only
    split
    · exact hsame
    next c hget =>
      cases commits with
      | false => exact hsame
      | true => exact h.continues_update hget (Ledger.advances_finished status body errorCode) hr
  | markInterrupted index commits =>
    unfold step
    dsimp only
    split
    · exact hsame
    next c hget =>
      cases commits with
      | false => exact hsame
      | true => exact h.continues_update hget Ledger.advances_interrupted hr
  | leave | deployed => exact hsame
  | restart commits =>
    cases commits with
    | false => exact hsame
    | true =>
      refine continues_map Ledger.advances_interrupted hr fun hterminal => ?_
      unfold Ledger.interrupted
      split
      next hpending =>
        rw [hpending] at hterminal
        cases hterminal
      · exact ⟨rfl, rfl⟩
  | collect protect picked =>
    refine ⟨r, ?_, .refl r⟩
    have hkept : r ∈ s.ledger.collect protect picked :=
      mem_filter.mpr ⟨(find_some hr).1, hspare r hr⟩
    exact (h.rows.collect protect picked).find_of_at hkept (find_some hr).2

/-- A record is continued as long as it is spared. -/
theorem continues_play (acts : List (Act κ ρ β)) :
    ∀ {s : Attempts κ ρ β} {r : Record (Actor × κ) ρ β}, Sound s →
      s.ledger.find route key = some r → Along step (Spares route key) s acts →
      Sound (play step s acts) ∧
        ∃ r', (play step s acts).ledger.find route key = some r' ∧ Continues r r' := by
  induction acts with
  | nil =>
    intro s r h hr _
    exact ⟨h, r, hr, .refl r⟩
  | cons a acts ih =>
    intro s r h hr hspare
    obtain ⟨r', hr', hcontinues⟩ := continues_step h a hspare.1 hr
    obtain ⟨hsound, r'', hr'', hcontinues'⟩ := ih (sound_step h a) hr' hspare.2
    exact ⟨hsound, r'', hr'', hcontinues.trans hcontinues'⟩

end Continues

/-! ## What claims answer -/

/-- An answer to a claim on the row of `r`: another request is refused, the same one gets the
operation of `r`, never a new one, and the response of `r` if it has one. -/
structure Repeats (r : Record (Actor × κ) ρ β) (request : ρ)
    (x : Except IdempotencyError (ClaimResult β)) : Prop where
  reused : request ≠ r.request → x = .error .reused
  same : request = r.request → ∀ result, x = .ok result →
    result.isNew = false ∧ result.operation = r.operationId
  replayed : request = r.request → r.status.terminal →
    ∀ status body, r.response = some (status, body) → x = .ok (.replay r.operationId status body)

omit [DecidableEq κ] [DecidableEq ρ] in
/-- What repeats a continuation repeats the record. -/
theorem Repeats.of_continues {r r' : Record (Actor × κ) ρ β} {request : ρ}
    {x : Except IdempotencyError (ClaimResult β)} (h : Repeats r' request x)
    (hcontinues : Continues r r') : Repeats r request x where
  reused := fun hne => h.reused (by rwa [hcontinues.request])
  same := by
    intro heq result hx
    rw [← hcontinues.operation]
    exact h.same (heq.trans hcontinues.request.symm) result hx
  replayed := by
    intro heq hterminal status body hresponse
    obtain ⟨hstatus, hkept⟩ := hcontinues.kept hterminal
    rw [← hcontinues.operation]
    exact h.replayed (heq.trans hcontinues.request.symm) (by rwa [hstatus]) status body
      (hkept.trans hresponse)

section Answers

variable
  {r : Record (Actor × κ) ρ β}

theorem repeats_claim (hkey : validKey key = true) (hr : l.find route key = some r) (request : ρ)
    (fresh : Uuid) : Repeats r request ((l.claim route key request fresh).map Prod.fst) := by
  unfold Ledger.claim
  simp only [hkey, Bool.not_true, Bool.false_eq_true, if_false, hr]
  by_cases heq : r.request = request
  · rw [if_neg (not_not_intro heq)]
    refine ⟨fun hne => absurd heq.symm hne, fun _ result hx => ?_,
      fun _ hterminal status body hresponse => ?_⟩
    · split at hx
      all_goals cases hx
      all_goals exact ⟨rfl, rfl⟩
    · rw [hresponse]
      split
      all_goals simp_all [Status.terminal, Except.map]
  · rw [if_pos heq]
    exact ⟨fun _ => rfl, fun h => absurd h.symm heq, fun h => absurd h.symm heq⟩

theorem repeats_claimDeployment (hkey : validKey key = true) (hr : l.find route key = some r)
    (request : ρ) (fresh : Uuid) (idle : Bool) (body : Uuid → β) :
    Repeats r request ((l.claimDeployment route key request fresh idle body).map Prod.fst) := by
  unfold Ledger.claimDeployment
  simp only [hkey, Bool.not_true, Bool.false_eq_true, if_false, hr]
  by_cases heq : r.request = request
  · rw [if_neg (not_not_intro heq)]
    refine ⟨fun hne => absurd heq.symm hne, fun _ result hx => ?_,
      fun _ hterminal status body hresponse => ?_⟩
    · split at hx
      all_goals cases hx
      all_goals exact ⟨rfl, rfl⟩
    · rw [hresponse]
      split
      all_goals simp_all [Status.terminal, Except.map]
  · rw [if_pos heq]
    exact ⟨fun _ => rfl, fun h => absurd h.symm heq, fun h => absurd h.symm heq⟩

end Answers

/-- A request under a recorded key repeats the record. -/
theorem Sound.repeats {s : Attempts κ ρ β} (h : Sound s)
    {r : Record (Actor × κ) ρ β} (hr : s.ledger.find route key = some r) {b : Act κ ρ β}
    {request : ρ} (hasks : b.asks = some (route, key, request)) :
    Repeats r request (s.answer b) := by
  have hkey : validKey key = true := by
    obtain ⟨hmem, hat⟩ := find_some hr
    rw [← hat.2]
    exact h.valid r hmem
  match b, hasks with
  | .claim _ _ _ true, rfl => exact repeats_claim hkey hr request s.next
  | .claimDeployment _ _ _ _ idle body true, rfl =>
    exact repeats_claimDeployment hkey hr request s.next idle body

/-- A new operation has its record. -/
theorem recorded_of_new {s : Attempts κ ρ β} {a : Act κ ρ β}
    {request : ρ} {op : Uuid} (hasks : a.asks = some (route, key, request))
    (hnew : s.answer a = .ok (.new op)) :
    ∃ r, (s.step a).ledger.find route key = some r ∧ r.operationId = op ∧ r.request = request := by
  have happend : ∀ {l : Ledger (Actor × κ) ρ β} {r : Record (Actor × κ) ρ β},
      l.find r.route r.key = none → Ledger.find (l ++ [r]) r.route r.key = some r := by
    intro l r hnone
    rw [find_append, hnone]
    simp [Record.At]
  unfold Act.asks at hasks
  split at hasks
  next route key request =>
    cases hasks
    unfold answer at hnew
    unfold step
    dsimp only at hnew ⊢
    cases hgranted : s.granted (.claim route key request true) with
    | error err =>
      rw [hgranted] at hnew
      cases hnew
    | ok granted =>
      obtain ⟨result, l⟩ := granted
      rw [hgranted] at hnew
      cases hnew
      rcases claim_cases hgranted with
        ⟨hnone, hres, rfl⟩ | ⟨_, _, _, _, hres, _⟩ | ⟨_, _, _, hres, _⟩
      · cases hres
        exact ⟨_, happend (r := ⟨(.admin, route), key, request, s.next, .pending, none, none, none⟩)
          hnone,
          rfl, rfl⟩
      · cases hres
      · cases hres
  next actor route key request idle body =>
    cases hasks
    unfold answer at hnew
    unfold step
    dsimp only at hnew ⊢
    cases hgranted : s.granted (.claimDeployment actor route key request idle body true) with
    | error err =>
      rw [hgranted] at hnew
      cases hnew
    | ok granted =>
      obtain ⟨result, l⟩ := granted
      rw [hgranted] at hnew
      cases hnew
      rcases Ledger.claimDeployment_cases hgranted with ⟨hnone, hres, rfl⟩ | ⟨_, _, _, hres, _⟩
      · cases hres
        exact ⟨_, happend (r := ⟨(actor, route), key, request, s.next, .succeeded,
          some (202, body s.next), none, none⟩) hnone, rfl, rfl⟩
      · cases hres
  · cases hasks

/-- Every operation runs once. After any interleaving, no two attempts at one operation are
under way; a claim answered as new leaves a record; and as long as a record is not
collected, no claim on its key is new again, the same request gets its operation, another
request is refused, and once it has a response, that is what the same request gets. -/
theorem operations_run_once (before : List (Act κ ρ β)) :
    ((after before).running ++ (after before).deploying).Pairwise
        (fun c d => c.operation ≠ d.operation) ∧
      (∀ a route key request op, a.asks = some (route, key, request) →
        (after before).answer a = .ok (.new op) →
        ∃ r, ((after before).step a).ledger.find route key = some r ∧ r.operationId = op ∧
          r.request = request) ∧
      ∀ route key r, (after before).ledger.find route key = some r →
        (r.status.terminal → r.response.isSome) ∧
        ∀ acts, Along step (Spares route key) (after before) acts →
          ∀ b request, b.asks = some (route, key, request) →
            Repeats r request ((play step (after before) acts).answer b) := by
  have hsound := sound_after before
  refine ⟨hsound.alone, fun _ _ _ _ _ hasks hnew => recorded_of_new hasks hnew,
    fun route key r hr => ⟨hsound.answered r (find_some hr).1, ?_⟩⟩
  intro acts hspare b request hasks
  obtain ⟨hlater, r', hr', hcontinues⟩ := continues_play acts hsound hr hspare
  exact (hlater.repeats hr' hasks).of_continues hcontinues

/-- A request is claimed, interrupted and claimed again; another request under its key is
refused, and once it has ended, its response is replayed. -/
theorem interrupted_request_runs_once :
    let claim : Act String String String := .claim "/api/v1/apps" "0123456789abcdef" "create" true
    let later := play step (after [claim, .markInterrupted 0 true])
      [claim, .finish 0 201 "created" none true]
    (after [claim, .markInterrupted 0 true, claim]).running.length = 1 ∧
      later.answer claim = .ok (.replay 0 201 "created") ∧
      later.answer (.claim "/api/v1/apps" "0123456789abcdef" "other" true) = .error .reused := by
  intro claim later
  have hfinished : later.ledger.find (.admin, "/api/v1/apps") "0123456789abcdef" =
      some ⟨(.admin, "/api/v1/apps"), "0123456789abcdef", "create", 0, .succeeded,
        some (201, "created"), none, none⟩ := by decide +kernel
  have hplay :
    later = after [claim, .markInterrupted 0 true, claim, .finish 0 201 "created" none true] :=
    rfl
  obtain ⟨-, -, hrecord⟩ := operations_run_once
    [claim, .markInterrupted 0 true, claim, .finish 0 201 "created" none true]
  rw [← hplay] at hrecord
  obtain ⟨-, hclaims⟩ := hrecord _ _ _ hfinished
  refine ⟨by decide +kernel, (hclaims [] trivial claim "create" rfl).replayed rfl rfl _ _ rfl, ?_⟩
  exact (hclaims [] trivial (.claim "/api/v1/apps" "0123456789abcdef" "other" true)
    "other" rfl).reused
    (by decide)

/-- No end is lost. After any interleaving, the record of a handler that runs is there and
pending for its operation; when the handler finishes, that record gets the response, and what
any other key finds stays as it is. -/
theorem ends_recorded (before : List (Act κ ρ β)) (index : Nat)
    {c : Claim (Actor × κ) ρ} (hc : (after before).running[index]? = some c)
      (status : Nat) (body : β)
    (errorCode : Option String) :
    let later := (after before).step (.finish index status body errorCode true)
    (∃ r, (after before).ledger.find c.route c.key = some r ∧ r.operationId = c.operation ∧
      r.request = c.request ∧ r.status = .pending ∧
      later.ledger.find c.route c.key = some (Ledger.finished status body errorCode r)) ∧
    ∀ route key, ¬(c.route = route ∧ c.key = key) →
      later.ledger.find route key = (after before).ledger.find route key := by
  intro later
  have hsound := sound_after before
  have hmem := List.mem_of_getElem? hc
  have hledger :
    later.ledger = (after before).ledger.finish c.route c.key status body errorCode := by
    simp only [later, step, hc, if_true, ← hsound.admin c hmem]
  have hadvances := Ledger.advances_finished (κ := Actor × κ) (ρ := ρ) status body errorCode
  rw [hledger]
  refine ⟨?_, fun _ _ hne => Ledger.find_update_of_ne hadvances hne⟩
  obtain ⟨r, hr, hop, hrequest, hpending⟩ := hsound.exclusive.holds c hmem
  refine ⟨r, hr, hop, hrequest, hpending, ?_⟩
  rw [Ledger.finish, Ledger.find_update_self hadvances, hr, Option.map_some]

/-- One of two requests ends, and the record of the other is as it was. -/
theorem other_record_untouched :
    let claim (key : String) : Act String String String := .claim "/api/v1/apps" key "create" true
    let later := (after [claim "0123456789abcdef", claim "fedcba9876543210"]).step
      (.finish 1 201 "created" none true)
    later.ledger.find (.admin, "/api/v1/apps") "0123456789abcdef" =
      some ⟨(.admin, "/api/v1/apps"), "0123456789abcdef", "create", 0, .pending, none,
        none, none⟩ := by
  intro claim later
  have hends := ends_recorded [claim "0123456789abcdef", claim "fedcba9876543210"]
    1 rfl 201 "created" none
  exact (hends.2 _ _ (by decide)).trans (by decide +kernel)

end Attempts

end SoloDock.Mutation
