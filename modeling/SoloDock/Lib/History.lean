/-!
# Histories of a system

A system is a state and a step function over actions. `play` is the state after a
list of actions, `Along G` says that every step of the list meets the condition `G` on
the state before it and the action, and `Along.invariant` is the rule by which a whole
run keeps what each of its steps keeps.
-/

namespace SoloDock.Lib

variable {S A : Type} (step : S → A → S)

/-- The state after a list of actions. -/
def play (s : S) : List A → S
  | [] => s
  | a :: as => play (step s a) as

/-- Every step meets the condition `G`. -/
def Along (G : S → A → Prop) (s : S) : List A → Prop
  | [] => True
  | a :: as => G s a ∧ Along G (step s a) as

instance decidableAlong (G : S → A → Prop) [∀ s a, Decidable (G s a)] :
    ∀ s as, Decidable (Along step G s as)
  | _, [] => .isTrue trivial
  | s, a :: as =>
    have := decidableAlong G (step s a) as
    inferInstanceAs (Decidable (G s a ∧ Along step G (step s a) as))

variable {step}

/-- A history can be played in two parts. -/
theorem play_append (s : S) (as bs : List A) :
    play step s (as ++ bs) = play step (play step s as) bs := by
  induction as generalizing s with
  | nil => rfl
  | cons a as ih => exact ih _

theorem Along.mono {G G' : S → A → Prop} (hG : ∀ s a, G s a → G' s a) {s : S} {as : List A}
    (h : Along step G s as) : Along step G' s as := by
  induction as generalizing s with
  | nil => trivial
  | cons a as ih => exact ⟨hG s a h.1, ih h.2⟩

theorem along_of_forall {G : S → A → Prop} (h : ∀ s a, G s a) (s : S) (as : List A) :
    Along step G s as := by
  induction as generalizing s with
  | nil => trivial
  | cons a as ih => exact ⟨h s a, ih _⟩

theorem along_append {G : S → A → Prop} {s : S} {as bs : List A} :
    Along step G s (as ++ bs) ↔ Along step G s as ∧ Along step G (play step s as) bs := by
  induction as generalizing s with
  | nil => exact ⟨fun h => ⟨trivial, h⟩, fun h => h.2⟩
  | cons a as ih => exact Iff.trans (and_congr_right fun _ => ih) (and_assoc).symm

/-- What every allowed step preserves holds after an allowed history. -/
theorem Along.invariant {G : S → A → Prop} {I : S → Prop}
    (hstep : ∀ s a, G s a → I s → I (step s a)) {s : S} {as : List A}
    (h : Along step G s as) (hs : I s) : I (play step s as) := by
  induction as generalizing s with
  | nil => exact hs
  | cons a as ih => exact ih h.2 (hstep s a h.1 hs)

end SoloDock.Lib
