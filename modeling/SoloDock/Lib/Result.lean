/-!
# Results of checks

A check is an `Except`. These lemmas take a chain of checks that succeeded apart.
-/

namespace SoloDock.Lib

variable {ε α β : Type} {x : Except ε α}

theorem bind_eq_ok {f : α → Except ε β} {b : β} :
    (x >>= f) = .ok b ↔ ∃ a, x = .ok a ∧ f a = .ok b := by
  cases x with
  | ok a =>
    constructor
    · intro h
      exact ⟨a, rfl, h⟩
    · rintro ⟨a', heq, h⟩
      cases heq
      exact h
  | error err =>
    constructor
    · intro h
      cases h
    · rintro ⟨_, heq, -⟩
      cases heq

theorem pure_eq_ok {a b : α} : (pure a : Except ε α) = .ok b ↔ a = b :=
  ⟨fun h => Except.ok.inj h, fun h => congrArg Except.ok h⟩

/-- A guard that was passed. -/
theorem guard_eq_ok {c : Prop} [Decidable c] {err : ε} {a : α} :
    (if c then .error err else x) = .ok a ↔ ¬c ∧ x = .ok a := by
  by_cases hc : c
  · simp [hc]
  · simp [hc]

theorem ok_of_toOption {a : α} (h : x.toOption = some a) : x = .ok a := by
  cases x with
  | ok b => exact congrArg Except.ok (Option.some.inj h)
  | error err => cases h

end SoloDock.Lib
