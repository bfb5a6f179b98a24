import SoloDock.Lib.Keyed
import SoloDock.Mutation.Ledger

/-!
# The rows of the ledger

`Rows l next` is what every statement on the table keeps: operations and keys are
distinct, and every operation was drawn below `next`. With it a row is known by its
operation or by its key, so the record of an operation under way is the pending one
(`Rows.pending`), and what a reader of `view` finds after a statement is what it found
before, except for the row the statement is about.
-/

namespace SoloDock.Mutation

open Lib

namespace Ledger

variable {κ ρ β : Type} [DecidableEq κ]

structure Rows (l : Ledger κ ρ β) (next : Uuid) : Prop where
  operations : l.Pairwise fun r s => r.operationId ≠ s.operationId
  keys : l.Pairwise fun r s => (r.route, r.key) ≠ (s.route, s.key)
  below : ∀ r ∈ l, r.operationId < next

variable {r : Record κ ρ β} {f : Record κ ρ β → Record κ ρ β} {route : κ} {key : String}
  {result : ClaimResult β} {l l' : Ledger κ ρ β}

namespace Rows

variable {next next' : Uuid}

omit [DecidableEq κ] in
theorem nil : Rows ([] : Ledger κ ρ β) next := ⟨.nil, .nil, nofun⟩

omit [DecidableEq κ] in
theorem mono (h : l.Rows next) (hle : next ≤ next') : l.Rows next' :=
  ⟨h.operations, h.keys, fun r hr => Nat.lt_of_lt_of_le (h.below r hr) hle⟩

omit [DecidableEq κ] in
theorem map (h : l.Rows next) (hf : Advances f) : Rows (l.map f) next := by
  refine ⟨List.pairwise_map.mpr (h.operations.imp fun {r s} hne => ?_),
    List.pairwise_map.mpr (h.keys.imp fun {r s} hne => ?_), fun r hr => ?_⟩
  · rw [(hf r).2.2.1, (hf s).2.2.1]
    exact hne
  · rw [(hf r).1, (hf r).2.1, (hf s).1, (hf s).2.1]
    exact hne
  · obtain ⟨s, hs, rfl⟩ := List.mem_map.mp hr
    rw [(hf s).2.2.1]
    exact h.below s hs

theorem update (h : l.Rows next) (hf : Advances f) : (l.update route key f).Rows next := by
  refine h.map fun r => ?_
  split
  · exact hf r
  · exact ⟨rfl, rfl, rfl, rfl⟩

omit [DecidableEq κ] in
theorem interruptPending (h : l.Rows next) : l.interruptPending.Rows next :=
  h.map advances_interrupted

omit [DecidableEq κ] in
theorem collect (h : l.Rows next) (protect : Record κ ρ β → Bool) (picked : Uuid → Bool) :
    (l.collect protect picked).Rows next :=
  ⟨h.operations.sublist List.filter_sublist, h.keys.sublist List.filter_sublist,
    fun r hr => h.below r (List.mem_filter.mp hr).1⟩

theorem append (h : l.Rows next) (hfresh : next ≤ r.operationId)
    (hnone : l.find r.route r.key = none) : Rows (l ++ [r]) (r.operationId + 1) := by
  refine ⟨?_, ?_, fun s hs => ?_⟩
  · refine List.pairwise_append.mpr ⟨h.operations, List.pairwise_singleton _ _, fun s hs t ht => ?_⟩
    cases List.mem_singleton.mp ht
    exact Nat.ne_of_lt (Nat.lt_of_lt_of_le (h.below s hs) hfresh)
  · refine List.pairwise_append.mpr ⟨h.keys, List.pairwise_singleton _ _, fun s hs t ht heq => ?_⟩
    cases List.mem_singleton.mp ht
    have hat : s.At r.route r.key := ⟨congrArg Prod.fst heq, congrArg Prod.snd heq⟩
    exact absurd hat (by simpa using List.find?_eq_none.mp hnone s hs)
  · rcases List.mem_append.mp hs with hs | hs
    · exact Nat.lt_of_lt_of_le (h.below s hs) (Nat.le_succ_of_le hfresh)
    · cases List.mem_singleton.mp hs
      exact Nat.lt_succ_self _

/-- A claim adds one row with an operation and a key of its own, or changes one in place. -/
theorem claim [DecidableEq ρ] (h : l.Rows next) {request : ρ} {fresh : Uuid} (hfresh : next ≤ fresh)
    (hclaim : l.claim route key request fresh = .ok (result, l')) : l'.Rows (fresh + 1) := by
  have hle : next ≤ fresh + 1 := Nat.le_succ_of_le hfresh
  rcases claim_cases hclaim with ⟨hnone, -, rfl⟩ | ⟨r, -, -, -, -, rfl⟩ | ⟨_, _, _, -, rfl⟩
  · exact h.append (r := ⟨route, key, request, fresh, .pending, none, none, none⟩) hfresh hnone
  · have hreopen : Advances fun r : Record κ ρ β => { r with status := .pending } :=
      fun _ => ⟨rfl, rfl, rfl, rfl⟩
    exact (h.update hreopen).mono hle
  · exact h.mono hle

/-- The row a statement on a key changes is the one that `find` sees. -/
theorem find_of_at (h : l.Rows next) (hr : r ∈ l)
    (hat : r.At route key) : l.find route key = some r := by
  obtain ⟨s, hs⟩ := Option.isSome_iff_exists.mp
    (List.find?_isSome (p := fun r : Record κ ρ β => decide (r.At route key)).mpr
      ⟨r, hr, by simpa using hat⟩)
  have hs' := find_some hs
  have hkey : (s.route, s.key) = (r.route, r.key) := by
    rw [hs'.2.1, hs'.2.2, hat.1, hat.2]
  rw [← eq_of_key_eq h.keys hs'.1 hr hkey]
  exact hs

theorem pending (h : l.Rows next) {c : Claim κ ρ} (hc : l.Holds c) (hr : r ∈ l)
    (hop : r.operationId = c.operation) :
    l.find c.route c.key = some r ∧ r.status = .pending ∧ r.request = c.request := by
  obtain ⟨s, hs, hsop, hreq, hpending⟩ := hc
  have hsr : s = r := eq_of_key_eq h.operations (find_some hs).1 hr (hsop.trans hop.symm)
  rw [← hsr]
  exact ⟨hs, hpending, hreq⟩

end Rows

theorem Exclusive.claimed [DecidableEq ρ] {cs : List (Claim κ ρ)} {request : ρ} {fresh : Uuid}
    (h : l.Exclusive cs) (hclaim : l.claim route key request fresh = .ok (result, l')) :
    l'.Exclusive cs := by
  rcases claim_cases hclaim with ⟨-, hres, -⟩ | ⟨r, -, -, -, hres, -⟩ | ⟨_, _, _, -, rfl⟩
  · exact (h.claim hclaim (.inl hres)).forget (List.sublist_append_left _ _)
  · exact (h.claim hclaim (.inr hres)).forget (List.sublist_append_left _ _)
  · exact h

/-- The other operations under way have keys of their own. `f` is the claim that a member of
the list works for, if any. -/
theorem Exclusive.among {l : Ledger κ ρ β} {f : α → Option (Claim κ ρ)} {a : α}
    {c : Claim κ ρ} (ha : f a = some c) :
    ∀ {as : List α} {i : Nat}, l.Exclusive (as.filterMap f) → as[i]? = some a →
      ∀ d ∈ (as.eraseIdx i).filterMap f, c.Apart d
  | e :: as, 0, h, hget, d, hd => by
    obtain rfl : e = a := by simpa using hget
    rw [List.filterMap_cons_some ha] at h
    exact (List.pairwise_cons.mp h.apart).1 d hd
  | e :: as, i + 1, h, hget, d, hd => by
    have hget : as[i]? = some a := by simpa using hget
    have hmem : c ∈ as.filterMap f := List.mem_filterMap.mpr ⟨a, List.mem_of_getElem? hget, ha⟩
    rw [List.eraseIdx_cons_succ] at hd
    cases he : f e with
    | none =>
      rw [List.filterMap_cons_none he] at hd h
      exact among ha h hget d hd
    | some b =>
      rw [List.filterMap_cons_some he] at hd h
      obtain ⟨hb, hrest⟩ := List.pairwise_cons.mp h.apart
      rcases List.mem_cons.mp hd with rfl | hd
      · exact (hb c hmem).symm
      · exact among ha ⟨fun d hd => h.holds d (List.mem_cons_of_mem _ hd), hrest⟩ hget d hd

/-! ## What a reader of the table finds -/

variable {l : Ledger κ ρ β} {route route' : κ} {op next : Uuid}
  {tells : β → Bool}

theorem view_update (hf : Advances f) : (l.update route key f).view route' op =
      (l.find? fun r => r.route == route' && r.operationId == op).map fun r =>
        if r.At route key then ⟨(f r).status, (f r).response⟩ else ⟨r.status, r.response⟩ := by
  unfold view Ledger.update
  rw [List.find?_map, Option.map_map]
  have hsame : (fun r : Record κ ρ β => r.route == route' && r.operationId == op) ∘
      (fun r => if r.At route key then f r else r)
      = fun r => r.route == route' && r.operationId == op := by
    funext r
    dsimp only [Function.comp]
    split
    · rw [(hf r).1, (hf r).2.2.1]
    · rfl
  rw [hsame]
  congr 1
  funext r
  dsimp only [Function.comp]
  split <;> rfl

theorem view_update_of_route_ne (hf : Advances f) (hne : route ≠ route') (key : String)
    (op : Uuid) : (l.update route key f).view route' op = l.view route' op := by
  rw [view_update hf, view]
  cases hfind : l.find? fun r => r.route == route' && r.operationId == op with
  | none => rfl
  | some r =>
    have hroute := List.find?_some hfind
    simp only [Bool.and_eq_true, beq_iff_eq] at hroute
    have hnot : ¬r.At route key := fun hat => hne (hat.1.symm.trans hroute.1)
    simp [hnot]

theorem view_update_of_same (hf : Advances f)
    (hsame : ∀ r, (f r).status = r.status ∧ (f r).response = r.response) :
    (l.update route key f).view route' op = l.view route' op := by
  rw [view_update hf, view]
  congr 1
  funext r
  rw [(hsame r).1, (hsame r).2, ite_self]

theorem view_update_of_op_ne (h : l.Rows next)
    (hf : Advances f) (hr : l.find route key = some r) (hne : r.operationId ≠ op) (route' : κ) :
    (l.update route key f).view route' op = l.view route' op := by
  rw [view_update hf, view]
  cases hfind : l.find? fun r => r.route == route' && r.operationId == op with
  | none => rfl
  | some s =>
    have hs := List.find?_some hfind
    simp only [Bool.and_eq_true, beq_iff_eq] at hs
    have hnot : ¬s.At route key := fun hat => by
      have hsr := (h.find_of_at (List.mem_of_find?_eq_some hfind) hat).symm.trans hr
      cases hsr
      exact hne hs.2
    simp [hnot]

theorem view_append_of_ne
    (hne : r.operationId ≠ op) : (l ++ [r]).view route op = l.view route op := by
  unfold view
  rw [List.find?_append, List.find?_singleton]
  have hnot : (r.route == route && r.operationId == op) = false := by simp [hne]
  rw [hnot]
  simp

variable {protect : Record κ ρ β → Bool} {picked : Uuid → Bool}

theorem view_collect (h : ∀ r ∈ l, r.operationId = op → outlives protect picked r = true) :
    (l.collect protect picked).view route op = l.view route op := by
  unfold view Ledger.collect
  rw [List.find?_filter]
  refine congrArg _ (find?_congr fun r hr => ?_)
  by_cases hop : r.operationId = op
  · simp only [h r hr hop, decide_true, Bool.true_and, Bool.decide_and, Bool.decide_eq_true]
  · simp [hop]

theorem mem_of_view {v : View β} (h : l.view route op = some v) :
    ∃ r ∈ l, r.route = route ∧ r.operationId = op ∧ v = ⟨r.status, r.response⟩ := by
  obtain ⟨r, hr, rfl⟩ := Option.map_eq_some_iff.mp h
  have hat := List.find?_some hr
  simp only [Bool.and_eq_true, beq_iff_eq] at hat
  exact ⟨r, List.mem_of_find?_eq_some hr, hat.1, hat.2, rfl⟩

theorem view_of_mem (h : l.Rows next)
    (hr : r ∈ l) : l.view r.route r.operationId = some ⟨r.status, r.response⟩ := by
  obtain ⟨s, hs⟩ := Option.isSome_iff_exists.mp (List.find?_isSome (p := fun s : Record κ ρ β =>
    s.route == r.route && s.operationId == r.operationId).mpr ⟨r, hr, by simp⟩)
  have hat := List.find?_some hs
  simp only [Bool.and_eq_true, beq_iff_eq] at hat
  have hsr : s = r := eq_of_key_eq h.operations (List.mem_of_find?_eq_some hs) hr hat.2
  unfold view
  rw [hs, hsr]
  rfl

theorem view_update_self (h : l.Rows next) (hf : Advances f) (hr : l.find route key = some r) :
    (l.update route key f).view route r.operationId = some ⟨(f r).status, (f r).response⟩ := by
  obtain ⟨hmem, hat⟩ := find_some hr
  have hnew : f r ∈ l.update route key f := List.mem_map.mpr ⟨r, hmem, if_pos hat⟩
  have hrows : (l.update route key f).Rows next := h.update hf
  have hview := view_of_mem hrows hnew
  rw [(hf r).1, (hf r).2.2.1, hat.1] at hview
  exact hview

theorem owned_markInterrupted (tells : β → Bool) (l : Ledger κ ρ β) (route route' : κ)
    (key : String) (op : Uuid) :
    owned tells ((l.markInterrupted route key).view route' op) =
      owned tells (l.view route' op) := by
  rw [markInterrupted, view_update advances_interrupted, view]
  cases l.find? fun r => r.route == route' && r.operationId == op with
  | none => rfl
  | some r =>
    simp only [Option.map_some]
    split
    · unfold interrupted
      cases hstatus : r.status <;> simp [owned, hstatus]
    · rfl

theorem proven_markInterrupted (tells : β → Bool) (l : Ledger κ ρ β) (route route' : κ)
    (key : String) (op : Uuid) :
    proven tells ((l.markInterrupted route key).view route' op) =
      proven tells (l.view route' op) := by
  rw [Bool.eq_iff_iff, ← owned_ok_true, ← owned_ok_true, owned_markInterrupted]

theorem proven_append (hpending : r.status = .pending) {op : Uuid} :
    proven tells ((l ++ [r]).view route op) = proven tells (l.view route op) := by
  unfold view
  rw [List.find?_append]
  cases hfind : l.find? fun s => s.route == route && s.operationId == op with
  | some s => rfl
  | none =>
    rw [Option.none_or, List.find?_singleton]
    split
    · simp [proven, hpending]
    · rfl

theorem proven_of_reopen (h : proven tells
      ((l.update route key fun r => { r with status := .pending }).view route' op) = true) :
    proven tells (l.view route' op) = true := by
  have hreopen : Advances fun r : Record κ ρ β => { r with status := .pending } :=
    fun _ => ⟨rfl, rfl, rfl, rfl⟩
  rw [view_update hreopen] at h
  rw [view]
  cases hfind : l.find? fun r => r.route == route' && r.operationId == op with
  | none =>
    rw [hfind] at h
    exact h
  | some r =>
    rw [hfind] at h
    simp only [Option.map_some] at h ⊢
    split at h
    · simp [proven] at h
    · exact h

theorem status_of_proven (h : proven tells (l.view route op) = true) :
    ∃ r ∈ l, r.route = route ∧ r.operationId = op ∧ r.status = .succeeded := by
  cases hview : l.view route op with
  | none =>
    rw [hview] at h
    cases h
  | some v =>
    obtain ⟨r, hr, hroute, hop, rfl⟩ := mem_of_view hview
    rw [hview] at h
    simp only [proven, Bool.and_eq_true, beq_iff_eq] at h
    exact ⟨r, hr, hroute, hop, h.1⟩

theorem proven_of_collect (hrows : l.Rows next) {op : Uuid}
    (h : proven tells ((l.collect protect picked).view route op) = true) :
    proven tells (l.view route op) = true := by
  cases hview : (l.collect protect picked).view route op with
  | none =>
    rw [hview] at h
    cases h
  | some v =>
    obtain ⟨r, hr, rfl, rfl, rfl⟩ := mem_of_view hview
    rw [view_of_mem hrows (List.mem_filter.mp hr).1, ← hview]
    exact h

theorem owned_reopen (h : ∃ s, owned tells (l.view route' op) = .ok s) : ∃ s, owned tells
      ((l.update route key fun r => { r with status := .pending }).view route' op) = .ok s := by
  have hreopen : Advances fun r : Record κ ρ β => { r with status := .pending } :=
    fun _ => ⟨rfl, rfl, rfl, rfl⟩
  rw [view_update hreopen]
  rw [view] at h
  cases hfind : l.find? fun r => r.route == route' && r.operationId == op with
  | none =>
    rw [hfind] at h
    exact h
  | some r =>
    rw [hfind] at h
    simp only [Option.map_some] at h ⊢
    split
    · exact ⟨false, rfl⟩
    · exact h

theorem owned_ok_iff {row : Option (View β)} : (∃ s, owned tells row = .ok s) ↔
      ∃ v, row = some v ∧ (v.status = .pending ∨ v.status = .interrupted ∨
        v.status = .succeeded ∧ ∃ body, v.response = some (200, body) ∧ tells body = true) := by
  rcases row with _ | ⟨status, response⟩
  · simp [owned]
  · cases status with
    | pending | interrupted | failed => simp [owned]
    | succeeded =>
      rcases response with _ | ⟨status, body⟩
      · simp [owned]
      · by_cases h : status = 200 ∧ tells body = true
        · simp [owned, h]
        · have hno : owned tells (some ⟨.succeeded, some (status, body)⟩) = .error .recordInvalid :=
            if_neg h
          rw [hno]
          refine ⟨fun hs => ?_, ?_⟩
          · obtain ⟨s, hs⟩ := hs
            cases hs
          rintro ⟨v, hv, hopen | hopen | ⟨-, body', hresponse, htells⟩⟩
          · cases hv
            cases hopen
          · cases hv
            cases hopen
          · cases hv
            cases hresponse
            exact absurd ⟨rfl, htells⟩ h

end Ledger

end SoloDock.Mutation
