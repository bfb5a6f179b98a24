/-!
# Counters that restart

A limiter counts up to `limit` and starts again at zero once `span` has passed since its
window began. An interval of one span then meets at most two of its windows.
-/

namespace SoloDock.Lib

/-- What such a counter says of the interval of one span from `a` on, of which `seen` events
were counted by `now`: they are of the running window, or of it and the one before, or the
interval is over. -/
structure Counted (span limit a window count seen now : Nat) : Prop where
  count_le : count ≤ limit
  begun : 0 < seen → a ≤ now
  windows : seen ≤ count ∨ a ≤ window ∧ seen ≤ limit + count ∨ a + span ≤ now ∧ seen ≤ 2 * limit

namespace Counted

variable {span limit a window count seen now : Nat}

theorem start (span limit a window now : Nat) : Counted span limit a window 0 0 now :=
  ⟨Nat.zero_le _, fun h => absurd h (Nat.lt_irrefl 0), .inl (Nat.le_refl 0)⟩

section

variable (h : Counted span limit a window count seen now)

include h

theorem le_twice : seen ≤ 2 * limit := by
  have := h.count_le
  rcases h.windows with h | h | h <;> omega

theorem later {now' : Nat} (hle : now ≤ now') : Counted span limit a window count seen now' := by
  refine ⟨h.count_le, fun hseen => Nat.le_trans (h.begun hseen) hle, ?_⟩
  have := h.windows
  omega

/-- A new window begins once the old one is over. -/
theorem restart (hover : window + span ≤ now)
    {window' : Nat} (hle : now ≤ window') : Counted span limit a window' 0 seen now := by
  refine ⟨Nat.zero_le _, h.begun, ?_⟩
  have hcount := h.count_le
  have hbegun := h.begun
  rcases h.windows with hwin | hwin | hwin
  · -- all of them were of the window that ended
    rcases Nat.eq_zero_or_pos seen with hzero | hpos
    · exact .inl (by omega)
    · exact .inr (.inl ⟨Nat.le_trans (hbegun hpos) hle, by omega⟩)
  · exact .inr (.inr ⟨by omega, by omega⟩)
  · exact .inr (.inr hwin)

/-- The counter goes up for an event, which may be one of the interval. -/
theorem count_event {count' hits : Nat} (hlimit : count' ≤ limit) (hcount : count + hits ≤ count')
    (hhits : hits = 0 ∨ a ≤ now ∧ now < a + span) :
    Counted span limit a window count' (seen + hits) now := by
  refine ⟨hlimit, fun hpos => ?_, ?_⟩
  · rcases hhits with rfl | hin
    · exact h.begun hpos
    · exact hin.1
  · have := h.windows
    omega

end

end Counted

end SoloDock.Lib
