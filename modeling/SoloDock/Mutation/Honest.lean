import SoloDock.Mutation.Rows

/-!
# A recorded rejection and what was done

A client that reads a 4xx takes its request for rejected and drops the key. `Honest` says
of a ledger, the operations under way and an account of the operations that have done
something: the rows are in order, every operation under way has its pending record, and
no rejected operation is in the account. The account belongs to whoever keeps the ledger;
the lemmas say what each statement on the table, and each entry in the account, asks for.
Only the end of an operation asks for something: an operation that ends with a 4xx is not
in the account.
-/

namespace SoloDock.Mutation

open Lib

variable {κ ρ β : Type} [DecidableEq κ]

/-- The record says that the request was rejected. -/
def Record.rejected (r : Record κ ρ β) : Bool :=
  r.status = .failed && r.response.any fun response => 400 ≤ response.1 && response.1 < 500

namespace Ledger

/-- `about` are the requests the account is kept for. -/
structure Honest (about : ρ → Bool) (l : Ledger κ ρ β) (next : Uuid) (cs : List (Claim κ ρ))
    (account : List Uuid) : Prop where
  rows : l.Rows next
  under : l.Exclusive cs
  honest : ∀ r ∈ l, about r.request = true → r.rejected = true → r.operationId ∉ account

namespace Honest

variable {about : ρ → Bool} {l l' : Ledger κ ρ β} {next : Uuid} {cs : List (Claim κ ρ)}
  {account : List Uuid}

theorem nil : Honest about ([] : Ledger κ ρ β) next [] account :=
  ⟨.nil, ⟨fun _ hc => absurd hc List.not_mem_nil, .nil⟩, fun _ hr => absurd hr List.not_mem_nil⟩

variable {ds : List (Claim κ ρ)}

theorem forget (h : l.Honest about next cs account) (hsub : ds.Sublist cs) :
    l.Honest about next ds account :=
  ⟨h.rows, h.under.forget hsub, h.honest⟩

theorem frame (h : l.Honest about next cs account) {next' : Uuid}
    (hrows : l'.Rows next') (hunder : l'.Exclusive ds) (hrecords : ∀ r ∈ l', r.rejected = true →
      ∃ s ∈ l, s.operationId = r.operationId ∧ s.request = r.request ∧ s.rejected = true) :
    l'.Honest about next' ds account := by
  refine ⟨hrows, hunder, fun r hr habout hrejected => ?_⟩
  obtain ⟨s, hs, hop, hreq, hrejected⟩ := hrecords r hr hrejected
  rw [← hop]
  rw [← hreq] at habout
  exact h.honest s hs habout hrejected

/-- A granted claim, with the operation added to those under way if it was granted one. -/
theorem claim [DecidableEq ρ] (h : l.Honest about next cs account) {route : κ} {key : String}
    {request : ρ} {fresh : Uuid} {result : ClaimResult β} (hfresh : next ≤ fresh)
    (hclaim : l.claim route key request fresh = .ok (result, l'))
    (hds : ds = cs ∨ ∃ op, (result = .new op ∨ result = .resume op) ∧
      ds = cs ++ [⟨route, key, op, request⟩]) : l'.Honest about (fresh + 1) ds account := by
  refine h.frame (h.rows.claim hfresh hclaim) ?_ fun r hr hrejected => ?_
  · rcases hds with rfl | ⟨op, hop, rfl⟩
    · exact h.under.claimed hclaim
    · exact h.under.claim hclaim hop
  · rcases mem_claim hclaim hr with hr | rfl | ⟨s, -, rfl⟩
    · exact ⟨r, hr, rfl, rfl, hrejected⟩
    · cases hrejected
    · cases hrejected

omit [DecidableEq κ] in
theorem rejected_of_interrupted {r : Record κ ρ β} (h : (interrupted r).rejected = true) :
    r.rejected = true := by
  unfold interrupted at h
  split at h
  · cases h
  · exact h

theorem interruptPending (h : l.Honest about next [] account) :
    l.interruptPending.Honest about next [] account := by
  refine h.frame h.rows.interruptPending ⟨fun _ hc => absurd hc List.not_mem_nil, .nil⟩
    fun r hr hrejected => ?_
  obtain ⟨s, hs, rfl⟩ := List.mem_map.mp hr
  exact ⟨s, hs, (advances_interrupted s).2.2.1.symm, (advances_interrupted s).2.2.2.symm,
    rejected_of_interrupted hrejected⟩

theorem collect (h : l.Honest about next cs account) (protect : Record κ ρ β → Bool)
    (picked : Uuid → Bool) : (l.collect protect picked).Honest about next cs account :=
  h.frame (h.rows.collect protect picked) ⟨fun c hc => (h.under.holds c hc).collect, h.under.apart⟩
    fun r hr hrejected => ⟨r, (List.mem_filter.mp hr).1, rfl, rfl, hrejected⟩

section

variable (h : l.Honest about next cs account)

include h

/-- A statement on the row of another operation than those of the list, which rejects
nothing. -/
theorem update {c : Claim κ ρ} {f : Record κ ρ β → Record κ ρ β} (hf : Advances f)
    (hapart : ∀ d ∈ cs, c.Apart d) (hkeep : ∀ r, (f r).rejected = true → r.rejected = true) :
    (l.update c.route c.key f).Honest about next cs account := by
  refine h.frame (h.rows.update hf) (h.under.update hf hapart) fun r hr hrejected => ?_
  rcases mem_update hr with hr | ⟨s, hs, rfl⟩
  · exact ⟨r, hr, rfl, rfl, hrejected⟩
  · exact ⟨s, hs, (hf s).2.2.1.symm, (hf s).2.2.2.symm, hkeep s hrejected⟩

theorem markInterrupted {c : Claim κ ρ} (hapart : ∀ d ∈ cs, c.Apart d) :
    (l.markInterrupted c.route c.key).Honest about next cs account :=
  h.update advances_interrupted hapart fun _ => rejected_of_interrupted

theorem enter {c : Claim κ ρ} (hholds : l.Holds c)
    {account' : List Uuid} (hadds : ∀ op ∈ account', op ∈ account ∨ op = c.operation) :
    l.Honest about next cs account' := by
  refine ⟨h.rows, h.under, fun r hr habout hrejected hmem => ?_⟩
  rcases hadds _ hmem with hmem | hop
  · exact h.honest r hr habout hrejected hmem
  · have hpending := (h.rows.pending hholds hr hop).2.1
    simp [Record.rejected, hpending] at hrejected

theorem finish {c : Claim κ ρ}
    (hapart : ∀ d ∈ cs, c.Apart d) (hholds : l.Holds c) {status : Nat} {body : β}
    {code : Option String}
    (hfree : about c.request = true → 400 ≤ status → status < 500 → c.operation ∉ account) :
    (l.finish c.route c.key status body code).Honest about next cs account := by
  have hf := advances_finished (κ := κ) (ρ := ρ) status body code
  refine ⟨h.rows.update hf, h.under.update hf hapart, fun r hr habout hrejected => ?_⟩
  obtain ⟨s, hs, heq⟩ := List.mem_map.mp hr
  split at heq
  next hat =>
    -- The row is the operation's own.
    obtain ⟨own, hown, hop, hreq, -⟩ := hholds
    have hsame : s = own := Option.some.inj ((h.rows.find_of_at hs hat).symm.trans hown)
    rw [← heq] at habout hrejected ⊢
    simp only [Record.rejected, finished, Option.any_some, Bool.and_eq_true, decide_eq_true_eq]
      at hrejected
    have habout : about s.request = true := habout
    show s.operationId ∉ account
    rw [hsame, hop]
    rw [hsame, hreq] at habout
    exact hfree habout hrejected.2.1 hrejected.2.2
  · cases heq
    exact h.honest s hs habout hrejected

end

end Honest

end Ledger

end SoloDock.Mutation
