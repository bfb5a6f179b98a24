import SoloDock.Auth.Service

/-!
# The failures a fixed window lets through

The throttle counts failures in a window that the first of them opens; with the fifth the
account is blocked for as long as a window lasts. `Tally fs t` says how the failures `fs`,
newest first, stand behind the row `t`: those of the window that is open, and the older
ones, of which at most three are younger than a window before the open one began (a window
that was closed early had at most four, and its first one is older than that; a full window
blocked the account until all of it was). `tally_fail` is the step of one more failure.

An interval as long as a window either ends before the open window began, or holds at most
three older failures and the five of the open window: `spread_cons`.
-/

namespace SoloDock.Auth

open Lib

/-- The instant `t` lies in the half-open interval of 15 minutes from `a` on. -/
def inInterval (a t : Int) : Bool :=
  a ≤ t ∧ t < a + throttleWindow

/-- The window open in the row `t` was opened at `start`; `cur` are its failures, `old` those
before it. -/
structure Window (start : Int) (cur old : List Int) (t : Throttle) : Prop where
  started : t.windowStartedAt = some start
  count : t.failureCount = cur.length
  limit : cur.length ≤ throttleLimit
  within : ∀ x ∈ cur, start ≤ x
  first : start ∈ cur
  before : ∀ x ∈ old, x ≤ start
  few : old.countP (start - throttleWindow < ·) ≤ 3
  blocked : cur.length = throttleLimit →
    ∃ b, t.blockedUntil = some b ∧ ∀ x ∈ cur, x + throttleWindow ≤ b

/-- How the failures `fs` stand behind the row. -/
inductive Tally (fs : List Int) (t : Throttle) : Prop where
  | clear (empty : fs = []) (unopened : t.windowStartedAt = none) (zero : t.failureCount = 0)
  | counted (start : Int) (cur old : List Int) (split : fs = cur ++ old)
      (window : Window start cur old t)

/-- Any interval of 15 minutes holds at most eight of the failures. -/
def Spread (fs : List Int) : Prop :=
  ∀ a, fs.countP (inInterval a) ≤ 8

theorem countP_lt_of_mem {p : Int → Bool} {l : List Int} {x : Int} (hx : x ∈ l)
    (hp : p x = false) : l.countP p < l.length := by
  refine Nat.lt_of_le_of_ne List.countP_le_length fun he => ?_
  have hall := List.countP_eq_length.mp he x hx
  rw [hp] at hall
  exact Bool.false_ne_true hall

variable {start now : Int} {cur old fs : List Int} {t : Throttle}

/-- A row that does not block at `now` has fewer than five failures in its window, or its
window is over and the cooldown with it. -/
theorem Window.unblocked (h : Window start cur old t) (hnow : t.blockedAt now = false)
    (hfull : cur.length = throttleLimit) : ∀ x ∈ cur, x + throttleWindow ≤ now := by
  obtain ⟨b, hb, hcur⟩ := h.blocked hfull
  intro x hx
  have hlt : ¬now < b := by simpa [Throttle.blockedAt, hb] using hnow
  have := hcur x hx
  omega

theorem Window.grow (h : Window start cur old t) (hnow : t.blockedAt now = false)
    (hin : now - start < throttleWindow) (hlate : ∀ x ∈ cur, x ≤ now) :
    Window start (now :: cur) old (t.fail now) := by
  have hwithin : t.withinWindow now = true := by
    simpa [Throttle.withinWindow, h.started] using hin
  have hroom : cur.length < throttleLimit := by
    refine Nat.lt_of_le_of_ne h.limit fun hfull => ?_
    have := h.unblocked hnow hfull start h.first
    omega
  have hcount : (t.fail now).failureCount = cur.length + 1 := by
    simp [Throttle.fail, hwithin, h.count]
  refine ⟨by simpa [Throttle.fail, hwithin] using h.started, hcount, hroom, ?_,
    List.mem_cons_of_mem _ h.first, h.before, h.few, fun hfull => ?_⟩
  · intro x hx
    rcases List.mem_cons.mp hx with rfl | hx
    · exact Int.le_trans (h.within start h.first) (hlate start h.first)
    · exact h.within x hx
  · have hlimit : throttleLimit ≤ cur.length + 1 := by
      rw [List.length_cons] at hfull
      omega
    refine ⟨now + throttleCooldown, by simp [Throttle.fail, hwithin, h.count, hlimit], ?_⟩
    intro x hx
    rcases List.mem_cons.mp hx with rfl | hx
    · exact Int.le_refl _
    · exact Int.add_le_add_right (hlate x hx) _

/-- Of the failures behind a row that is open for a new window, at most three are younger
than a window. -/
theorem Window.few_late (h : Window start cur old t) (hnow : t.blockedAt now = false)
    (hout : throttleWindow ≤ now - start) : (cur ++ old).countP (now - throttleWindow < ·) ≤ 3 := by
  have hold : old.countP (now - throttleWindow < ·) = 0 := by
    rw [List.countP_eq_zero]
    intro x hx
    have := h.before x hx
    simp only [decide_eq_true_eq]
    omega
  rw [List.countP_append, hold, Nat.add_zero]
  by_cases hfull : cur.length = throttleLimit
  · -- a full window: the cooldown is over, and every failure is older than it
    have hcur : cur.countP (now - throttleWindow < ·) = 0 := by
      rw [List.countP_eq_zero]
      intro x hx
      have := h.unblocked hnow hfull x hx
      simp only [decide_eq_true_eq]
      omega
    omega
  · -- a window of at most four, the first of which is too old
    have hfirst : cur.countP (now - throttleWindow < ·) < cur.length := by
      refine countP_lt_of_mem h.first ?_
      simp only [decide_eq_false_iff_not]
      omega
    have hlimit := h.limit
    have hfive : throttleLimit = 5 := rfl
    omega

theorem window_open (hout : t.withinWindow now = false) (hlate : ∀ x ∈ fs, x ≤ now)
    (hfew : fs.countP (now - throttleWindow < ·) ≤ 3) : Window now [now] fs (t.fail now) where
  started := by simp [Throttle.fail, hout]
  count := by simp [Throttle.fail, hout]
  limit := by simp [throttleLimit]
  within := by simp
  first := List.mem_singleton_self _
  before := hlate
  few := hfew
  blocked := fun h => absurd h (by simp [throttleLimit])

/-- The count of failures never passes the limit. -/
theorem Tally.failureCount_le (h : Tally fs t) : t.failureCount ≤ throttleLimit := by
  cases h with
  | clear _ _ hzero => rw [hzero]; exact Nat.zero_le _
  | counted start cur old _ hwindow => rw [hwindow.count]; exact hwindow.limit

theorem tally_fail (h : Tally fs t) (hnow : t.blockedAt now = false) (hlate : ∀ x ∈ fs, x ≤ now) :
    Tally (now :: fs) (t.fail now) := by
  cases h with
  | clear hnone hunopened _ =>
    subst hnone
    have hout : t.withinWindow now = false := by simp [Throttle.withinWindow, hunopened]
    exact .counted now [now] [] rfl (window_open hout hlate (by simp))
  | counted start cur old hsplit hwindow =>
    subst hsplit
    by_cases hin : now - start < throttleWindow
    · exact .counted start (now :: cur) old rfl
        (hwindow.grow hnow hin fun x hx => hlate x (List.mem_append_left _ hx))
    · have hout : t.withinWindow now = false := by
        simpa [Throttle.withinWindow, hwindow.started] using hin
      exact .counted now [now] (cur ++ old) rfl
        (window_open hout hlate (hwindow.few_late hnow (by omega)))

theorem spread_cons (hs : Spread fs) (h : Tally (now :: fs) t) : Spread (now :: fs) := by
  intro a
  cases h with
  | clear hnone => simp at hnone
  | counted start cur old hsplit hwindow =>
    obtain ⟨x, cur, rfl⟩ := List.exists_cons_of_ne_nil (List.ne_nil_of_mem hwindow.first)
    obtain ⟨rfl, rfl⟩ : now = x ∧ fs = cur ++ old := by simpa using hsplit
    rw [hsplit, List.countP_append]
    by_cases ha : a + throttleWindow ≤ start
    · -- the interval ends before the window was opened
      have hcur : (now :: cur).countP (inInterval a) = 0 := by
        rw [List.countP_eq_zero]
        intro y hy
        have := hwindow.within y hy
        simp only [inInterval, decide_eq_true_eq, not_and]
        omega
      have hold := hs a
      rw [List.countP_append] at hold
      omega
    · have hcur : (now :: cur).countP (inInterval a) ≤ throttleLimit :=
        Nat.le_trans List.countP_le_length hwindow.limit
      have hold : old.countP (inInterval a) ≤ old.countP (start - throttleWindow < ·) := by
        refine List.countP_mono_left fun y _ hy => ?_
        simp only [inInterval, decide_eq_true_eq] at hy ⊢
        omega
      have hfew := hwindow.few
      have hfive : throttleLimit = 5 := rfl
      omega

end SoloDock.Auth
