/-!
# Splitting and joining text

Text is a list of characters here: the functions below recurse on it, so a
concrete text evaluates in the kernel. `split` and `join` are inverse at one
separator (`join_split`), `rsplitOnce` cuts at the last separator
(`rsplitOnce_eq`, `rsplitOnce_append`).
-/

namespace SoloDock.Lib.Text

/-- The pieces between the occurrences of `c`; always at least one. -/
def split {α : Type} [DecidableEq α] (c : α) : List α → List α × List (List α)
  | [] => ([], [])
  | x :: xs =>
    if x = c then ([], (split c xs).1 :: (split c xs).2)
    else (x :: (split c xs).1, (split c xs).2)

/-- The pieces with `c` between them. -/
def join (c : Char) : List Char → List (List Char) → List Char
  | p, [] => p
  | p, q :: qs => p ++ c :: join c q qs

/-- The text before and after the last `c`. -/
def rsplitOnce (c : Char) : List Char → Option (List Char × List Char)
  | [] => none
  | x :: xs =>
    match rsplitOnce c xs with
    | some (a, b) => some (x :: a, b)
    | none => if x = c then some ([], xs) else none

/-- `pat` occurs in the text as a contiguous piece. -/
def hasInfix (pat : List Char) : List Char → Bool
  | [] => pat.isEmpty
  | x :: xs => pat.isPrefixOf (x :: xs) || hasInfix pat xs

theorem join_cons (c : Char) (x : Char) (p : List Char) (ps : List (List Char)) :
    join c (x :: p) ps = x :: join c p ps := by
  cases ps <;> rfl

theorem join_split (c : Char) (s : List Char) : join c (split c s).1 (split c s).2 = s := by
  induction s with
  | nil => rfl
  | cons x xs ih =>
    unfold split
    split
    next h => rw [join, ih, List.nil_append, h]
    next h => rw [join_cons, ih]

variable {c : Char} {s a : List Char} {α : Type} {b : List Char}

theorem rsplitOnce_eq (h : rsplitOnce c s = some (a, b)) : s = a ++ c :: b := by
  induction s generalizing a with
  | nil => simp [rsplitOnce] at h
  | cons x xs ih =>
    unfold rsplitOnce at h
    split at h
    next a' b' h' =>
      obtain ⟨rfl, rfl⟩ : x :: a' = a ∧ b' = b := by simpa using h
      rw [ih h', List.cons_append]
    next h' =>
      split at h
      next hx =>
        obtain ⟨rfl, rfl⟩ : [] = a ∧ xs = b := by simpa using h
        rw [hx, List.nil_append]
      · simp at h

/-- The first piece holds no separator. -/
theorem not_mem_split [DecidableEq α] (c : α) (s : List α) : c ∉ (split c s).1 := by
  induction s with
  | nil => exact List.not_mem_nil
  | cons x xs ih =>
    unfold split
    split
    · exact List.not_mem_nil
    next h =>
      intro hmem
      rcases List.mem_cons.mp hmem with heq | hmem
      · exact h heq.symm
      · exact ih hmem

theorem mem_split [DecidableEq α] {c x : α} {s : List α} (h : x ∈ s) :
    x = c ∨ ∃ piece ∈ (split c s).1 :: (split c s).2, x ∈ piece := by
  induction s with
  | nil => exact absurd h List.not_mem_nil
  | cons y s ih =>
    unfold split
    split
    next hy =>
      rcases List.mem_cons.mp h with rfl | h
      · exact .inl hy
      · exact (ih h).imp_right fun ⟨piece, hpiece, hx⟩ => ⟨piece, List.mem_cons_of_mem _ hpiece, hx⟩
    · rcases List.mem_cons.mp h with rfl | h
      · exact .inr ⟨_, List.mem_cons_self, List.mem_cons_self⟩
      · refine (ih h).imp_right fun ⟨piece, hpiece, hx⟩ => ?_
        rcases List.mem_cons.mp hpiece with rfl | hpiece
        · exact ⟨_, List.mem_cons_self, List.mem_cons_of_mem _ hx⟩
        · exact ⟨piece, List.mem_cons_of_mem _ hpiece, hx⟩

theorem split_append [DecidableEq α] {c : α} {a : List α} (h : c ∉ a) (b : List α) :
    split c (a ++ c :: b) = (a, (split c b).1 :: (split c b).2) := by
  induction a with
  | nil => rw [List.nil_append, split, if_pos rfl]
  | cons x a ih =>
    obtain ⟨hx, ha⟩ := not_or.mp (fun hor => h (List.mem_cons.mpr hor))
    rw [List.cons_append, split, if_neg (fun heq => hx heq.symm), ih ha]

/-- The text up to the first separator, and what follows it. -/
theorem cut_inj {c : Char} {a a' b b' : List Char} (ha : c ∉ a) (ha' : c ∉ a')
    (h : a ++ c :: b = a' ++ c :: b') : a = a' ∧ b = b' := by
  have hsplit := congrArg (split c) h
  rw [split_append ha, split_append ha'] at hsplit
  obtain rfl := (Prod.mk.inj hsplit).1
  exact ⟨rfl, List.cons_inj_right c |>.mp (List.append_cancel_left h)⟩

theorem rsplitOnce_eq_none : rsplitOnce c s = none ↔ c ∉ s := by
  induction s with
  | nil => simp [rsplitOnce]
  | cons x s ih =>
    rw [rsplitOnce, List.mem_cons, not_or, ← ih]
    cases rsplitOnce c s with
    | some p => simp
    | none =>
      by_cases hx : x = c
      · simp [hx]
      · simp [hx, Ne.symm hx]

/-- There is no separator after the last one. -/
theorem not_mem_of_rsplitOnce (h : rsplitOnce c s = some (a, b)) : c ∉ b := by
  induction s generalizing a with
  | nil => cases h
  | cons x s ih =>
    unfold rsplitOnce at h
    split at h
    next a' b' h' =>
      cases h
      exact ih h'
    next h' =>
      split at h
      · cases h
        exact rsplitOnce_eq_none.mp h'
      · cases h

theorem rsplitOnce_append (a : List Char) (h : c ∉ b) :
    rsplitOnce c (a ++ c :: b) = some (a, b) := by
  induction a with
  | nil =>
    rw [List.nil_append, rsplitOnce, rsplitOnce_eq_none.mpr h]
    exact if_pos rfl
  | cons x a ih => rw [List.cons_append, rsplitOnce, ih]

/-- A piece without the pattern's first letter does not matter. -/
theorem hasInfix_append {pat : List Char} (h : c ∉ a) (b : List Char) :
    hasInfix (c :: pat) (a ++ b) = hasInfix (c :: pat) b := by
  induction a with
  | nil => rfl
  | cons x a ih =>
    obtain ⟨hx, ha⟩ := not_or.mp (fun hor => h (List.mem_cons.mpr hor))
    rw [List.cons_append, hasInfix, ih ha, List.isPrefixOf, beq_false_of_ne hx]
    rfl

end SoloDock.Lib.Text
