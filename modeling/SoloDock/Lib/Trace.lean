import SoloDock.Lib.Prog

/-!
# Traces of runs

A world in which every run keeps a log of its calls: for each call the world before it and
the answer it got, the latest call first. `Runs` says which logs a complete run can leave
(`exec_runs`), and `wp_runs` lets a specification speak about them. `adversary` is the world
of which nothing is known: it answers every call as it likes, and is no more than the
exchanges so far.
-/

namespace SoloDock.Lib

/-- One call of a run: the world before it, the call, and its answer. -/
structure Event (E : Type) (R : E → Type) (W : Type) where
  before : W
  call : E
  answer : R call

namespace World

variable {E : Type} {R : E → Type} {W ε α : Type}

/-- The world with a log of the calls made. -/
abbrev traced (H : World E R W) : World E R (W × List (Event E R W)) where
  Choice := H.Choice
  act s e c := ((H.act s.1 e c).1, (H.act s.1 e c).2, ⟨s.1, e, (H.act s.1 e c).1⟩ :: s.2)

variable (H : World E R W) (o : H.Script)

/-- One call more: the run has ended before, or the log has one more event, with the world
so far before it. -/
theorem cut_traced_succ (n k : Nat) (p : Prog E R ε α) (s : W × List (Event E R W)) :
    H.traced.cut o n (k + 1) p s = H.traced.cut o n k p s ∨
      ∃ e answer, (H.traced.cut o n (k + 1) p s).2 =
        ⟨(H.traced.cut o n k p s).1, e, answer⟩ :: (H.traced.cut o n k p s).2 := by
  induction p generalizing n k s with
  | done | fail => cases k <;> exact .inl rfl
  | call e f ih =>
    cases k with
    | zero =>
      -- the first call; what follows it is not run
      refine .inr ⟨e, (H.act s.1 e (o n e)).1, ?_⟩
      unfold cut
      rw [cut_zero]
    | succ k => exact ih _ _ _ _

/-! ## Complete runs -/

/-- The program can run from `w` to its end with the calls `t`, the latest first, ending
with `r` and leaving `w'`. -/
def Runs : Prog E R ε α → W → List (Event E R W) → Except ε α → W → Prop
  | .done a, w, t, r, w' => t = [] ∧ r = .ok a ∧ w' = w
  | .fail err, w, t, r, w' => t = [] ∧ r = .error err ∧ w' = w
  | .call e k, w, t, r, w' =>
    ∃ c u, t = u ++ [⟨w, e, (H.act w e c).1⟩] ∧ Runs (k (H.act w e c).1) (H.act w e c).2 u r w'

/-- The log of a traced execution is a run of the program. -/
theorem exec_runs (n : Nat) (p : Prog E R ε α) (s : W × List (Event E R W)) :
    ∃ t, (H.traced.exec o n p s).2.2 = t ++ s.2
      ∧ H.Runs p s.1 t (H.traced.exec o n p s).1 (H.traced.exec o n p s).2.1 := by
  induction p generalizing n s with
  | done | fail => exact ⟨[], rfl, rfl, rfl, rfl⟩
  | call e k ih =>
    obtain ⟨t, hlog, hruns⟩ := ih (H.act s.1 e (o n e)).1 (n + 1)
      ((H.act s.1 e (o n e)).2, ⟨s.1, e, (H.act s.1 e (o n e)).1⟩ :: s.2)
    refine ⟨t ++ [⟨s.1, e, (H.act s.1 e (o n e)).1⟩], ?_, o n e, t, rfl, hruns⟩
    rw [List.append_assoc]
    exact hlog

variable {H} {p : Prog E R ε α}

/-- A specification may speak about the run itself. -/
theorem wp_runs {G : W × List (Event E R W) → (e : E) → H.Choice e → Prop}
    {C : W × List (Event E R W) → Prop}
    {Q : Except ε α → W × List (Event E R W) → Prop} {s : W × List (Event E R W)}
    (h : H.traced.wp G C p Q s) :
    H.traced.wp G C p (fun r s' => Q r s' ∧ ∃ t, s'.2 = t ++ s.2 ∧ H.Runs p s.1 t r s'.1) s := by
  induction p generalizing s with
  | done | fail => exact ⟨h, [], rfl, rfl, rfl, rfl⟩
  | call e k ih =>
    intro c hc
    obtain ⟨hcrash, hrest⟩ := h c hc
    refine ⟨hcrash, wp_mono (ih _ hrest) fun r s' ⟨hQ, t, hlog, hruns⟩ => ?_⟩
    refine ⟨hQ, t ++ [⟨s.1, e, (H.act s.1 e c).1⟩], ?_, c, t, rfl, hruns⟩
    rw [List.append_assoc]
    exact hlog

section Runs

open Prog

variable {β ε' : Type} {w w' : W} {t : List (Event E R W)}

theorem Runs.calls {F : E → Prop} {r : Except ε α} (hp : p.Only F)
    (h : H.Runs p w t r w') : ∀ e ∈ t, F e.call := by
  induction p generalizing w t with
  | done | fail =>
    rw [h.1]
    exact fun _ he => (List.not_mem_nil he).elim
  | call e k ih =>
    obtain ⟨c, u, ht, hrest⟩ := h
    intro event he
    rw [ht, List.mem_append, List.mem_singleton] at he
    rcases he with he | he
    · exact ih _ (hp.2 _) hrest event he
    · rw [he]
      exact hp.1

theorem runs_pure {a b : α} (h : H.Runs (pure a : Prog E R ε α) w t (.ok b) w') :
    t = [] ∧ a = b ∧ w' = w :=
  ⟨h.1, (Except.ok.inj h.2.1).symm, h.2.2⟩

variable {b : β} {k : α → Prog E R ε β}

theorem runs_bind {f : α → Prog E R ε β} (h : H.Runs (p >>= f) w t (.ok b) w') :
    ∃ a v t1 t2, H.Runs p w t1 (.ok a) v ∧ H.Runs (f a) v t2 (.ok b) w' ∧ t = t2 ++ t1 := by
  induction p generalizing w t with
  | done a => exact ⟨a, w, [], t, ⟨rfl, rfl, rfl⟩, h, (List.append_nil t).symm⟩
  | fail err => cases h.2.1
  | call e k ih =>
    obtain ⟨c, u, rfl, hrest⟩ := h
    obtain ⟨a, v, t1, t2, hp, hf, rfl⟩ := ih _ hrest
    exact ⟨a, v, _, t2, ⟨c, t1, rfl, hp⟩, hf, List.append_assoc ..⟩

theorem runs_ask_bind {e : E} {k : R e → Prog E R ε β} {r : Except ε β}
    (h : H.Runs (ask e >>= k) w t r w') : ∃ c u, t = u ++ [⟨w, e, (H.act w e c).1⟩]
      ∧ H.Runs (k (H.act w e c).1) (H.act w e c).2 u r w' := h

theorem runs_orElse_bind {x : Except ε' α} {g : ε' → ε}
    (h : H.Runs (orElse x g >>= k) w t (.ok b) w') :
    ∃ a, x = .ok a ∧ H.Runs (k a) w t (.ok b) w' := by
  cases x with
  | ok a => exact ⟨a, rfl, h⟩
  | error err => cases h.2.1

theorem runs_accept_bind {x : Except ε α} (h : H.Runs (accept x >>= k) w t (.ok b) w') :
    ∃ a, x = .ok a ∧ H.Runs (k a) w t (.ok b) w' :=
  runs_orElse_bind h

theorem runs_orStop_bind {x : Option α} {err : ε} (h : H.Runs (orStop x err >>= k) w t (.ok b) w') :
    ∃ a, x = some a ∧ H.Runs (k a) w t (.ok b) w' := by
  cases x with
  | some a => exact ⟨a, rfl, h⟩
  | none => cases h.2.1

theorem runs_ensure_bind {c : Bool} {err : ε} {k : Unit → Prog E R ε β}
    (h : H.Runs (ensure c err >>= k) w t (.ok b) w') : c = true ∧ H.Runs (k ()) w t (.ok b) w' := by
  cases c with
  | true => exact ⟨rfl, h⟩
  | false => cases h.2.1

end Runs

end World

/-- One call of a run and its answer. -/
structure Exchange (E : Type) (R : E → Type) where
  call : E
  answer : R call

/-- Any call may be answered in any way. The world is the exchanges so far, latest first. -/
abbrev adversary (E : Type) (R : E → Type) : World E R (List (Exchange E R)) where
  Choice := R
  act t e answer := (answer, ⟨e, answer⟩ :: t)

end SoloDock.Lib
