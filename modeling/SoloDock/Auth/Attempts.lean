import SoloDock.Auth.Throttle

/-!
# Concurrent attempts at the password

Logins and password changes take turns at the credential guard, so the row of the throttle
that an attempt read is still the row when it verifies the password and when it counts its
failure. `Counted` is the invariant of every history in which an attempt that holds the
guard runs to its end and every failure is recorded: the account of the attempts stands
behind the row as `Tally` says, with at most one failed verification that is not recorded
yet.
-/

namespace SoloDock.Auth

open Lib Lib.Prog Lib.Shared

/-! ## The account of the attempts -/

namespace Attempt

/-- The clock reading of a failure that was recorded. -/
def recordedAt : Attempt → Option Int
  | recorded now _ => some now
  | _ => none

/-- The clock reading of a verification that failed. -/
def failedAt : Attempt → Option Int
  | verified now false _ => some now
  | _ => none

/-- The failure opened a new window. -/
def opens : Attempt → Bool
  | recorded _ true => true
  | _ => false

end Attempt

/-- A failed verification that has not been recorded. -/
def pending : List Attempt → Option Int
  | [] => none
  | a :: _ => a.failedAt

/-- The failed verifications since the window was opened. -/
def sinceOpened (as : List Attempt) : Nat :=
  (as.takeWhile (!·.opens)).countP (·.failedAt.isSome)

/-- No stretch of the account between two openings of a window holds more than five failed
verifications. -/
def Stretches (as : List Attempt) : Prop :=
  ∀ later stretch earlier, as = later ++ stretch ++ earlier →
    (∀ a ∈ stretch, a.opens = false) → stretch.countP (·.failedAt.isSome) ≤ throttleLimit

/-- How the account stands behind the row, while no attempt has succeeded. -/
structure Account (t : Throttle) (clock : Int) (as : List Attempt) : Prop where
  tally : Tally (as.filterMap Attempt.recordedAt) t
  spread : Spread (as.filterMap Attempt.recordedAt)
  past : ∀ x ∈ as.filterMap Attempt.recordedAt, x ≤ clock
  failed : (as.filterMap Attempt.failedAt).Sublist
    ((pending as).toList ++ as.filterMap Attempt.recordedAt)
  next : ∀ now, pending as = some now →
    t.blockedAt now = false ∧ ∀ x ∈ as.filterMap Attempt.recordedAt, x ≤ now
  window : sinceOpened as ≤ (t.failureCount - 1) + (pending as).toList.length
  stretches : Stretches as

theorem sinceOpened_cons (a : Attempt) (as : List Attempt) : sinceOpened (a :: as) =
      if a.opens then 0 else sinceOpened as + if a.failedAt.isSome then 1 else 0 := by
  unfold sinceOpened
  rw [List.takeWhile_cons]
  cases a.opens <;> simp [List.countP_cons]

theorem countP_le_sinceOpened {stretch earlier : List Attempt}
    (h : ∀ a ∈ stretch, a.opens = false) :
    stretch.countP (·.failedAt.isSome) ≤ sinceOpened (stretch ++ earlier) := by
  induction stretch with
  | nil => exact Nat.zero_le _
  | cons a stretch ih =>
    have ha := h a List.mem_cons_self
    have hrest := ih fun b hb => h b (List.mem_cons_of_mem _ hb)
    rw [List.cons_append, sinceOpened_cons, ha, List.countP_cons]
    simp only [Bool.false_eq_true, if_false]
    omega

variable {as : List Attempt} {t : Throttle} {clock now : Int} {i : Nat} {w w' : World}

theorem stretches_cons {a : Attempt} (h : Stretches as)
    (hsince : sinceOpened (a :: as) ≤ throttleLimit) : Stretches (a :: as) := by
  intro later stretch earlier heq hopens
  cases later with
  | nil =>
    rw [List.nil_append] at heq
    exact Nat.le_trans (countP_le_sinceOpened hopens) (heq ▸ hsince)
  | cons b later =>
    have htail : as = later ++ stretch ++ earlier := (List.cons.inj heq).2
    exact h later stretch earlier htail hopens

section

variable (h : Account t clock as)

include h

theorem Account.sinceOpened_le : sinceOpened as ≤ 4 + (pending as).toList.length := by
  have hcount := h.tally.failureCount_le
  have hwindow := h.window
  have hfive : throttleLimit = 5 := rfl
  omega

theorem Account.later {clock' : Int} (hclock : clock ≤ clock') : Account t clock' as :=
  { h with past := fun x hx => Int.le_trans (h.past x hx) hclock }

theorem Account.verified {blocked : Bool} (hidle : pending as = none) :
    Account t clock (.verified now true blocked :: as) := by
  have hsince : sinceOpened (.verified now true blocked :: as) = sinceOpened as := by
    simp [sinceOpened_cons, Attempt.opens, Attempt.failedAt]
  have hfour := h.sinceOpened_le
  have hwindow := h.window
  have hfailed := h.failed
  rw [hidle] at hfour hwindow hfailed
  refine ⟨h.tally, h.spread, h.past, hfailed, nofun, ?_, stretches_cons h.stretches ?_⟩
  · rw [hsince]
    exact hwindow
  · rw [hsince]
    exact Nat.le_trans hfour (by decide)

theorem Account.refused {blocked : Bool} (hidle : pending as = none)
    (hnow : t.blockedAt now = false)
    (hlate : ∀ x ∈ as.filterMap Attempt.recordedAt, x ≤ now) :
    Account t clock (.verified now false blocked :: as) := by
  have hsince : sinceOpened (.verified now false blocked :: as) = sinceOpened as + 1 := by
    simp [sinceOpened_cons, Attempt.opens, Attempt.failedAt]
  have hfour := h.sinceOpened_le
  have hwindow := h.window
  have hfailed := h.failed
  rw [hidle] at hfour hwindow hfailed
  refine ⟨h.tally, h.spread, h.past, hfailed.cons_cons now, ?_, ?_, stretches_cons h.stretches ?_⟩
  · rintro _ ⟨rfl⟩
    exact ⟨hnow, hlate⟩
  · rw [hsince]
    exact Nat.succ_le_succ hwindow
  · rw [hsince]
    exact Nat.succ_le_succ hfour

/-- A failure is recorded, whether a verification had failed or the user name was wrong. -/
theorem Account.recorded (hpending : pending as = none ∨ pending as = some now)
    (hnow : t.blockedAt now = false) (hlate : ∀ x ∈ as.filterMap Attempt.recordedAt, x ≤ now)
    (hclock : now ≤ clock) :
    Account (t.fail now) clock (.recorded now (!t.withinWindow now) :: as) := by
  have htally := tally_fail h.tally hnow hlate
  have hcount := htally.failureCount_le
  have hwindow : sinceOpened (.recorded now (!t.withinWindow now) :: as)
      ≤ (t.fail now).failureCount - 1 := by
    cases hin : t.withinWindow now with
    | false => simp [sinceOpened_cons, Attempt.opens]
    | true =>
      -- the window was open, so its first failure has been counted
      have hopen : 0 < t.failureCount := by
        cases h.tally with
        | clear _ hunopened _ => simp [Throttle.withinWindow, hunopened] at hin
        | counted start cur old _ hw =>
          rw [hw.count]
          exact List.length_pos_of_mem hw.first
      have hone : (pending as).toList.length ≤ 1 := by
        rcases hpending with hp | hp <;> simp [hp]
      have hbefore := h.window
      have hfail : (t.fail now).failureCount = t.failureCount + 1 := by
        simp [Throttle.fail, hin]
      rw [hfail, sinceOpened_cons]
      simp only [Bool.not_true, Attempt.opens, Attempt.failedAt, Option.isSome_none,
        Bool.false_eq_true, if_false]
      omega
  refine ⟨htally, spread_cons h.spread htally, ?_, ?_, ?_, hwindow, stretches_cons h.stretches ?_⟩
  · intro x hx
    rcases List.mem_cons.mp hx with rfl | hx
    · exact hclock
    · exact h.past x hx
  · show (as.filterMap Attempt.failedAt).Sublist (now :: as.filterMap Attempt.recordedAt)
    have hfailed := h.failed
    rcases hpending with hp | hp
    · rw [hp] at hfailed
      exact hfailed.cons now
    · rw [hp] at hfailed
      exact hfailed
  · intro next hnext
    cases hnext
  · have hfive : throttleLimit = 5 := rfl
    omega

end

/-- Any interval of 15 minutes holds at most eight failed verifications, the one that is not
recorded yet included. -/
theorem Account.spread_failed
    (h : Account t clock as) : Spread (as.filterMap Attempt.failedAt) := by
  have hall : Spread ((pending as).toList ++ as.filterMap Attempt.recordedAt) := by
    cases hp : pending as with
    | none => exact h.spread
    | some now =>
      obtain ⟨hnow, hlate⟩ := h.next now hp
      exact spread_cons h.spread (tally_fail h.tally hnow hlate)
  exact fun a => Nat.le_trans (h.failed.countP_le) (hall a)

/-! ## The invariant -/

/-- No attempt is half way while the guard is free, no password was verified while the
account was blocked, and the account is in order while no attempt has succeeded. -/
structure Counted (w : World) : Prop where
  idle : w.guard = none → pending w.attempts = none
  unblocked : ∀ now valid blocked, .verified now valid blocked ∈ w.attempts → blocked = false
  account : .succeeded ∉ w.attempts → Account w.throttle w.clock w.attempts

/-- What thread `j` leaves alone: the guard of another, and what it protects. -/
def Yields (j : Nat) (w w' : World) : Prop :=
  w.clock ≤ w'.clock ∧ ∀ i, j ≠ i → w.guard = some i →
    w'.guard = some i ∧ w'.throttle = w.throttle ∧ w'.attempts = w.attempts

/-- Thread `i` holds the guard since before `now`, and `P` holds of what the guard protects. -/
def Held (i : Nat) (now : Int) (P : Throttle → List Attempt → Prop) (w : World) : Prop :=
  w.guard = some i ∧ now ≤ w.clock ∧ P w.throttle w.attempts

theorem stable_held (i : Nat) (now : Int) (P : Throttle → List Attempt → Prop) :
    Stable Counted Yields i (Held i now P) := by
  intro j w w' hj _ hA hG
  obtain ⟨hguard, hnow, hP⟩ := hA
  obtain ⟨hclock, hothers⟩ := hG
  obtain ⟨hguard', hthrottle, hattempts⟩ := hothers i hj hguard
  exact ⟨hguard', Int.le_trans hnow hclock, by rw [hthrottle, hattempts]; exact hP⟩

/-- A step of the holder of the guard that lets time pass and does not give it up. -/
theorem yields_held (hguard : w.guard = some i) (hclock : w.clock ≤ w'.clock) : Yields i w w' := by
  refine ⟨hclock, fun j hj hj' => absurd ?_ hj⟩
  exact Option.some.inj (hguard.symm.trans hj')

/-- The calls that leave the guard and what it protects as they are. -/
def Quiet : Call → Prop
  | .lockCredentialGuard => False
  | .unlockCredentialGuard => False
  | .verify _ _ _ => False
  | .recordCredentialFailure _ => False
  | .insertSession _ _ => False
  | .changePassword _ => False
  | _ => True

variable {e : Call} {c : Pick e} {r : Answer e}

theorem quiet_act (he : Quiet e) (h : w.act i e c = some (r, w')) :
    w.clock ≤ w'.clock ∧ w'.guard = w.guard ∧ w'.throttle = w.throttle ∧
      w'.attempts = w.attempts := by
  cases e with
  | lockCredentialGuard | unlockCredentialGuard | verify | recordCredentialFailure |
    insertSession | changePassword => exact he.elim
  | now =>
    cases h
    exact ⟨Int.le_add_of_nonneg_right (Int.natCast_nonneg _), rfl, rfl, rfl⟩
  | generateToken =>
    cases c <;> cases h <;>
      exact ⟨Int.le_refl _, rfl, rfl, rfl⟩
  | newId =>
    obtain ⟨-, rfl⟩ := World.draw_eq h
    exact ⟨Int.le_refl _, rfl, rfl, rfl⟩
  | deleteExpired | refresh | deleteSession | deleteSessions =>
    rcases World.write_eq (Option.some.inj h) with rfl | rfl <;>
      exact ⟨Int.le_refl _, rfl, rfl, rfl⟩
  | _ =>
    cases h
    exact ⟨Int.le_refl _, rfl, rfl, rfl⟩

theorem Counted.quiet (h : Counted w) (he : Quiet e) (hact : w.act i e c = some (r, w')) :
    Counted w' ∧ Yields i w w' := by
  obtain ⟨hclock, hguard, hthrottle, hattempts⟩ := quiet_act he hact
  refine ⟨⟨?_, ?_, ?_⟩, hclock, fun j _ hj => ⟨hguard.trans hj, hthrottle, hattempts⟩⟩
  · rw [hguard, hattempts]
    exact h.idle
  · rw [hattempts]
    exact h.unblocked
  · rw [hthrottle, hattempts]
    exact fun hnone => (h.account hnone).later hclock

/-! ## The histories -/

/-- Every failure is recorded. -/
def WritesSucceed (_ : World) (_ : Nat) : (e : Call) → Pick e → Prop
  | .recordCredentialFailure _, outcome => outcome = Outcome.ok
  | _, _ => True

instance (w : World) (i : Nat) (e : Call) (c : Pick e) : Decidable (WritesSucceed w i e c) := by
  cases e with
  | recordCredentialFailure now => exact inferInstanceAs (Decidable (c = Outcome.ok))
  | _ => exact .isTrue trivial

/-- The handler given up does not hold the guard. -/
def Outside (w : World) (i : Nat) : Prop := w.guard ≠ some i
  deriving Decidable

/-- No attempt is half way. -/
def Between (w : World) : Prop := w.guard = none
  deriving Decidable

section Programs

variable {i : Nat} {now : Int}

/-- Thread `i` holds the guard and has nothing to count. -/
def AtRest (i : Nat) (w : World) : Prop :=
  w.guard = some i ∧ pending w.attempts = none

/-- The attempt has read the clock. -/
def Timed (now : Int) (_ : Throttle) (as : List Attempt) : Prop :=
  pending as = none ∧
    (.succeeded ∉ as → ∀ x ∈ as.filterMap Attempt.recordedAt, x ≤ now)

/-- The attempt has found the account open. -/
def Open (now : Int) (t : Throttle) (as : List Attempt) : Prop :=
  Timed now t as ∧ t.blockedAt now = false

/-- The attempt has failed. -/
def Failed (now : Int) (t : Throttle) (as : List Attempt) : Prop :=
  (pending as = none ∨ pending as = some now) ∧
    (.succeeded ∉ as → ∀ x ∈ as.filterMap Attempt.recordedAt, x ≤ now) ∧
    t.blockedAt now = false

/-- The attempt has nothing more to count. -/
def Settled (_ : Throttle) (as : List Attempt) : Prop := pending as = none

variable {P : Throttle → List Attempt → Prop}

theorem atRest_of_held (hP : ∀ t as, P t as → pending as = none) {w : World} (h : Held i now P w) :
    AtRest i w := ⟨h.1, hP _ _ h.2.2⟩

theorem stable_atRest (i : Nat) : Stable Counted Yields i (AtRest i) := by
  intro j w w' hj _ hA hG
  obtain ⟨hguard, _, hattempts⟩ := hG.2 i hj hA.1
  exact ⟨hguard, by rw [hattempts]; exact hA.2⟩

variable {α : Type} {Q : Except AuthError α → World → Prop}

/-- A program of thread `i` that keeps the count, whatever the others do. -/
abbrev Tallies {ε : Type} (i : Nat) (p : Prog Call Answer ε α) (A : World → Prop)
    (Q : Except ε α → World → Prop) : Prop :=
  interface.Valid WritesSucceed Counted Yields i p A Q

variable {k : Answer e → Handler α} {sha256 : String → Bytes}

theorem valid_quiet (he : Quiet e)
    (hk : ∀ r, Tallies i (k r) (Held i now P) Q) : Tallies i (ask e >>= k) (Held i now P) Q := by
  refine valid_call (fun _ => Held i now P) (fun _ => stable_held i now P) ?_ hk
  intro w c r w' hI hA _ hact
  obtain ⟨hI', hG⟩ := hI.quiet he hact
  obtain ⟨hclock, hguard, hthrottle, hattempts⟩ := quiet_act he hact
  refine ⟨hI', hG, hguard.trans hA.1, Int.le_trans hA.2.1 hclock, ?_⟩
  rw [hthrottle, hattempts]
  exact hA.2.2

theorem valid_accept_bind {x : Except AuthError α} {k : α → Handler β} {A : World → Prop}
    {Q : Except AuthError β → World → Prop}
    (hok : ∀ a, x = .ok a → Tallies i (k a) A Q)
    (herror : ∀ w, Counted w → A w → ∀ err, Q (.error err) w) :
    Tallies i (Prog.accept x >>= k) A Q :=
  valid_orElse_bind hok fun err _ w hI hA => herror w hI hA err

theorem withCredentialGuard_valid {body : Handler α}
    (hbody : Tallies i body (AtRest i) fun _ => AtRest i) : Tallies i (withCredentialGuard body)
      (fun _ => True) fun _ _ => True := by
  refine valid_call (fun _ => AtRest i) (fun _ => stable_atRest i) ?_ fun _ => ?_
  · intro w c r w' hI _ _ hact
    obtain ⟨hfree, rfl⟩ := World.lock_eq hact
    refine ⟨⟨nofun, hI.unblocked, hI.account⟩, ⟨Int.le_refl _, ?_⟩, rfl, hI.idle hfree⟩
    intro j _ hj
    rw [hfree] at hj
    cases hj
  · refine valid_bind (valid_attempt (Q := fun _ => AtRest i) hbody) (fun result => ?_)
      fun _ _ _ _ => trivial
    refine valid_call (fun _ _ => True) (fun _ => stable_true) ?_ fun _ => ?_
    · intro w c r w' hI hA _ hact
      cases hact
      rw [World.leave, if_pos hA.1]
      refine ⟨⟨fun _ => hA.2, hI.unblocked, hI.account⟩, ?_, trivial⟩
      exact yields_held hA.1 (Int.le_refl _)
    · cases result <;> exact fun _ _ _ => trivial

theorem valid_now {k : Instant → Handler α} (hk : ∀ now, Tallies i (k now)
      (Held i now (Timed now)) Q) : Tallies i (ask .now >>= k) (AtRest i) Q := by
  refine valid_call (fun now => Held i now (Timed now)) (fun now => stable_held i now _) ?_ hk
  intro w c r w' hI hA _ hact
  obtain ⟨hI', hG⟩ := hI.quiet (e := .now) (i := i) trivial hact
  cases hact
  refine ⟨hI', hG, hA.1, Int.le_refl _, hA.2, fun hnone => (hI'.account hnone).past⟩

theorem ensureNotThrottled_valid {k : Unit → Handler α}
    (hk : Tallies i (k ()) (Held i now (Open now)) Q)
    (herror : ∀ w, Held i now (Timed now) w → ∀ err, Q (.error err) w) :
    Tallies i (ensureNotThrottled now >>= k) (Held i now (Timed now)) Q := by
  -- the answer is the column, and stays it while the guard is held
  refine valid_bind (P := fun r w => match r with
    | .ok () => Held i now (Open now) w
    | .error _ => Held i now (Timed now) w) ?_ (fun _ => hk) fun err w _ h => herror w h err
  refine valid_call (fun r => Held i now fun t as =>
    Timed now t as ∧ ∀ b, r = .ok b → t.blockedUntil = b) (fun _ => stable_held i now _) ?_ ?_
  · intro w c r w' hI hA _ hact
    obtain ⟨hI', hG⟩ := hI.quiet (e := .blockedUntil) (i := i) trivial hact
    cases hact
    refine ⟨hI', hG, hA.1, hA.2.1, hA.2.2, fun b hb => ?_⟩
    unfold World.read at hb
    split at hb
    · exact Except.ok.inj hb
    · cases hb
  · intro r
    refine valid_accept_bind (fun b hb => ?_) fun w _ hA _ => ⟨hA.1, hA.2.1, hA.2.2.1⟩
    subst hb
    cases b with
    | none =>
      refine fun w _ hA => ⟨hA.1, hA.2.1, hA.2.2.1, ?_⟩
      simp [Throttle.blockedAt, hA.2.2.2 none rfl]
    | some b =>
      refine valid_ite (fun _ => ?_) fun hopen => ?_
      · refine valid_quiet trivial fun audited => ?_
        refine valid_accept_bind (fun _ _ => ?_) fun w _ hA _ => ⟨hA.1, hA.2.1, hA.2.2.1⟩
        exact fun w _ hA => ⟨hA.1, hA.2.1, hA.2.2.1⟩
      · refine fun w _ hA => ⟨hA.1, hA.2.1, hA.2.2.1, ?_⟩
        simpa [Throttle.blockedAt, hA.2.2.2 (some b) rfl] using hopen

/-- A password is verified by the holder of the guard, who found the account open. -/
theorem Counted.verified (hI : Counted w) (hguard : w.guard = some i)
    (hopen : Open now w.throttle w.attempts) (valid : Bool) : Counted { w with
      attempts := .verified now valid (w.throttle.blockedAt now) :: w.attempts } := by
  refine ⟨fun hfree => ?_, fun now' valid' blocked hmem => ?_, fun hnone => ?_⟩
  · have hfree : w.guard = none := hfree
    rw [hguard] at hfree
    cases hfree
  · rcases List.mem_cons.mp hmem with heq | hmem
    · cases heq
      exact hopen.2
    · exact hI.unblocked now' valid' blocked hmem
  · have hnone' : .succeeded ∉ w.attempts := fun h => hnone (List.mem_cons_of_mem _ h)
    have haccount := hI.account hnone'
    cases valid with
    | true => exact haccount.verified hopen.1.1
    | false => exact haccount.refused hopen.1.1 hopen.2 (hopen.1.2 hnone')

/-- What holds when a verification has ended. -/
def Verified {ε : Type} (i : Nat) (now : Int) : Except ε Bool → World → Prop
  | .ok false => Held i now (Failed now)
  | _ => Held i now Settled

theorem verify_valid {password encodedHash : String} : Tallies i (verify now password encodedHash)
      (Held i now (Open now)) (Verified i now) := by
  refine valid_call (Verified i now) ?_ ?_ ?_
  · intro r
    unfold Verified
    split <;> exact stable_held i now _
  · intro w c r w' hI hA _ hact
    cases c with
    | error err =>
      cases hact
      exact ⟨hI, yields_held hA.1 (Int.le_refl _), hA.1, hA.2.1, hA.2.2.1.1⟩
    | ok valid =>
      cases hact
      refine ⟨hI.verified hA.1 hA.2.2 valid, yields_held hA.1 (Int.le_refl _), ?_⟩
      cases valid with
      | true => exact ⟨hA.1, hA.2.1, rfl⟩
      | false =>
        refine ⟨hA.1, hA.2.1, .inr rfl, fun hnone => ?_, hA.2.2.2⟩
        exact hA.2.2.1.2 fun h => hnone (List.mem_cons_of_mem _ h)
  · intro r
    cases r with
    | error err => exact fun w _ hA => hA
    | ok valid => cases valid <;> exact fun w _ hA => hA

theorem reject_valid {error : AuthError} : Tallies i (reject now error : Handler α)
      (Held i now (Failed now)) fun _ => AtRest i := by
  refine valid_call (fun _ => Held i now Settled) (fun _ => stable_held i now _) ?_ ?_
  · intro w c r w' hI hA hC hact
    have hC : c = Outcome.ok := hC
    subst hC
    cases hact
    obtain ⟨hguard, hclock, hpending, hlate, hopen⟩ := hA
    refine ⟨⟨fun _ => rfl, fun now' valid blocked hmem => ?_, fun hnone => ?_⟩,
      yields_held hguard (Int.le_refl _), hguard, hclock, rfl⟩
    · rcases List.mem_cons.mp hmem with heq | hmem
      · cases heq
      · exact hI.unblocked now' valid blocked hmem
    · have hnone' : .succeeded ∉ w.attempts := fun h => hnone (List.mem_cons_of_mem _ h)
      exact (hI.account hnone').recorded hpending hopen (hlate hnone') hclock
  · intro r
    refine valid_accept_bind (fun _ _ => ?_) fun w _ hA _ => ?_
    · exact fun w _ hA => atRest_of_held (fun _ _ h => h) hA
    · exact atRest_of_held (fun _ _ h => h) hA

theorem Counted.succeeded (hI : Counted w) {w' : World}
    (hattempts : w'.attempts = .succeeded :: w.attempts) : Counted w' := by
  refine ⟨fun _ => by rw [hattempts]; rfl, fun now valid blocked hmem => ?_, fun hnone => ?_⟩
  · rw [hattempts] at hmem
    rcases List.mem_cons.mp hmem with heq | hmem
    · cases heq
    · exact hI.unblocked now valid blocked hmem
  · rw [hattempts] at hnone
    exact absurd List.mem_cons_self hnone

theorem valid_success (hact : ∀ w c r w', World.act w i e c = some (r, w') → w' = w ∨
      w'.guard = w.guard ∧ w'.clock = w.clock ∧ w'.attempts = .succeeded :: w.attempts)
    (hk : ∀ r, Tallies i (k r) (Held i now Settled) Q) :
    Tallies i (ask e >>= k) (Held i now Settled) Q := by
  refine valid_call (fun _ => Held i now Settled) (fun _ => stable_held i now _) ?_ hk
  intro w c r w' hI hA _ h
  rcases hact w c r w' h with rfl | ⟨hguard, hclock, hattempts⟩
  · exact ⟨hI, yields_held hA.1 (Int.le_refl _), hA⟩
  · refine ⟨hI.succeeded hattempts, yields_held hA.1 (Int.le_of_eq hclock.symm),
      hguard.trans hA.1, ?_, ?_⟩
    · rw [hclock]
      exact hA.2.1
    · show pending w'.attempts = none
      rw [hattempts]
      rfl

theorem openSession_valid {passwordHash : String} : Tallies i (openSession sha256 now passwordHash)
      (Held i now Settled) fun _ => AtRest i := by
  have hend : ∀ w, Counted w → Held i now Settled w → ∀ err : AuthError, AtRest i w :=
    fun w _ hA _ => atRest_of_held (fun _ _ h => h) hA
  refine valid_quiet trivial fun token => valid_accept_bind (fun sessionToken _ => ?_) hend
  refine valid_quiet trivial fun token => valid_accept_bind (fun csrfToken _ => ?_) hend
  refine valid_quiet trivial fun id => valid_success ?_ fun stored => ?_
  · intro w c r w' hact
    rcases World.tryInsert_eq (Option.some.inj hact) with rfl | ⟨rfl, _⟩
    · exact .inl rfl
    · exact .inr ⟨rfl, rfl, rfl⟩
  · refine valid_accept_bind (fun _ _ => ?_) hend
    exact fun w _ hA => atRest_of_held (fun _ _ h => h) hA

theorem replacePassword_valid {newPassword : String} : Tallies i (replacePassword newPassword)
      (Held i now Settled) fun _ => AtRest i := by
  refine valid_quiet trivial fun hashed => valid_orElse_bind (fun newPasswordHash _ => ?_) ?_
  · refine valid_success ?_ fun stored => ?_
    · intro w c r w' hact
      rcases World.write_eq (Option.some.inj hact) with rfl | rfl
      · exact .inl rfl
      · exact .inr ⟨rfl, rfl, rfl⟩
    · cases stored <;> exact fun w _ hA => atRest_of_held (fun _ _ h => h) hA
  · exact fun _ _ w _ hA => atRest_of_held (fun _ _ h => h) hA

theorem attempt_valid {k : Instant → String → Handler α} (hk : ∀ now passwordHash, Tallies i
      (k now passwordHash) (Held i now (Open now)) fun _ => AtRest i) : Tallies i (do
      let now ← ask .now
      let _ ← ensureNotThrottled now
      let row ← ask .passwordHash
      let row ← Prog.accept row
      let passwordHash ← orStop row .setupRequired
      k now passwordHash) (AtRest i) fun _ => AtRest i := by
  refine valid_now fun now => ensureNotThrottled_valid ?_ ?_
  · refine valid_quiet trivial fun row => valid_accept_bind (fun row _ => ?_) fun w _ hA _ => ?_
    · refine valid_orStop_bind (fun passwordHash _ => hk now passwordHash) fun _ w _ hA => ?_
      exact atRest_of_held (fun _ _ h => h.1.1) hA
    · exact atRest_of_held (fun _ _ h => h.1.1) hA
  · exact fun w hA _ => atRest_of_held (fun _ _ h => h.1) hA

theorem login_valid {username password : String} : Tallies i (login sha256 username password)
      (fun _ => True) fun _ _ => True := by
  refine withCredentialGuard_valid (attempt_valid fun now passwordHash => ?_)
  refine valid_bind (P := Verified i now) ?_ ?_ ?_
  · refine valid_ite (fun _ => verify_valid) fun _ => ?_
    exact fun w _ hA => ⟨hA.1, hA.2.1, .inl hA.2.2.1.1, hA.2.2.1.2, hA.2.2.2⟩
  · intro valid
    cases valid with
    | true => exact openSession_valid
    | false => exact reject_valid
  · exact fun err w _ hA => atRest_of_held (fun _ _ h => h) hA

theorem changePassword_valid {currentPassword newPassword : String} :
    Tallies i (changePassword currentPassword newPassword) (fun _ => True) fun _ _ => True := by
  refine withCredentialGuard_valid (attempt_valid fun now passwordHash => ?_)
  refine valid_bind verify_valid ?_ ?_
  · intro valid
    cases valid with
    | true => exact replacePassword_valid
    | false => exact reject_valid
  · exact fun err w _ hA => atRest_of_held (fun _ _ h => h) hA

theorem authenticate_quiet (sha256 : String → Bytes) (token : String) :
    (authenticate sha256 token).Only Quiet := by
  refine only_bind (by simp [Quiet]) fun _ => only_bind (by simp [Prog.accept]) fun _ =>
    only_bind (by simp) fun _ => only_bind (by simp [Quiet]) fun _ =>
    only_bind (by simp [Prog.accept]) fun _ => only_bind (by simp) fun row => ?_
  refine only_bind (by simp [Quiet]) fun now => ?_
  split
  · exact only_bind (by simp [Quiet]) fun _ => only_bind (by simp [Prog.accept]) fun _ => trivial
  · refine only_bind (by simp [Quiet]) fun _ => only_bind ?_ fun _ =>
      only_bind (by simp [Quiet]) fun _ => trivial
    unfold refresh
    split
    · exact only_bind (by simp [Quiet]) fun _ => by simp [Prog.accept]
    · trivial

theorem valid_of_quiet {p : Handler α} (hp : p.Only Quiet) :
    Tallies i p (fun _ => True) fun _ _ => True :=
  valid_of_only hp stable_true fun _ _ _ _ _ he hI _ _ hact =>
    have hquiet := hI.quiet he hact
    ⟨hquiet.1, hquiet.2, trivial⟩

theorem handle_valid (sha256 : String → Bytes) (request : Request) :
    Tallies i (handle sha256 request) (fun _ => True) fun _ _ => True := by
  have hauth : ∀ token, Tallies i (authenticate sha256 token) (fun _ => True) fun _ _ => True :=
    fun token => valid_of_quiet (authenticate_quiet sha256 token)
  cases request with
  | login username password =>
    exact valid_bind login_valid (fun _ _ _ _ => trivial) fun _ _ _ _ => trivial
  | authenticated token =>
    exact valid_bind (hauth token) (fun _ _ _ _ => trivial) fun _ _ _ _ => trivial
  | logout token | revokeAll token =>
    refine valid_bind (hauth token) (fun _ => valid_of_quiet ?_) fun _ _ _ _ => trivial
    exact only_bind (by simp [Quiet]) fun _ => by simp [Prog.accept]
  | changePassword token currentPassword newPassword =>
    exact valid_bind (hauth token) (fun _ => changePassword_valid) fun _ _ _ _ => trivial

/-- Every request keeps the count of failed attempts, whatever the others do. -/
theorem serve_valid (sha256 : String → Bytes) (request : Request) (i : Nat) :
    Tallies i (serve sha256 request) (fun _ => True) fun _ _ => True :=
  valid_bind (valid_attempt (Q := fun _ _ => True) (handle_valid sha256 request))
    (fun _ _ _ _ => trivial) fun _ _ _ _ => trivial

end Programs

/-! ## Whole histories -/

/-- A history of the service starts with any sessions, any password and a clear throttle. -/
def World.start (passwordHash : Option String) (sessions : List Session) (clock : Instant) :
    World :=
  { passwordHash, throttle := Throttle.cleared, sessions, guard := none, clock,
    drawn := sessions.map (·.id), attempts := [], log := [] }

theorem counted_start (passwordHash : Option String) (sessions : List Session)
    (clock : Instant) : Counted (World.start passwordHash sessions clock) where
  idle := fun _ => rfl
  unblocked := fun _ _ _ h => absurd h List.not_mem_nil
  account := fun _ => {
    tally := .clear rfl rfl rfl
    spread := fun _ => Nat.zero_le _
    past := fun _ h => absurd h List.not_mem_nil
    failed := .slnil
    next := nofun
    window := Nat.zero_le _
    stretches := by
      intro later stretch earlier heq _
      obtain ⟨hpre, -⟩ := List.append_eq_nil_iff.mp heq.symm
      rw [(List.append_eq_nil_iff.mp hpre).2]
      exact Nat.zero_le _ }

/-- In every history of requests that interleave in any way, restarts in between, as long as
an attempt at the password that holds the guard runs to its end and its failure is recorded:
no password is verified while the account is blocked; and if no attempt has succeeded, any
half-open interval of 15 minutes holds the clock readings of at most eight failed
verifications, at most five of them lie between two openings of a window, and no window
counts more than five. -/
theorem failed_verifications_bounded (sha256 : String → Bytes) (passwordHash : Option String)
    (sessions : List Session) (clock : Instant) (moves : List (interface.Move Request))
    (hmoves : Along (interface.move (serve sha256))
      (interface.Meets WritesSucceed Outside Between)
      ⟨World.start passwordHash sessions clock, 0, []⟩ moves) :
    let w := (play (interface.move (serve sha256))
      ⟨World.start passwordHash sessions clock, 0, []⟩ moves).world
    (∀ now valid blocked, .verified now valid blocked ∈ w.attempts → blocked = false) ∧
    (.succeeded ∉ w.attempts →
      (∀ a, (w.attempts.filterMap Attempt.failedAt).countP (inInterval a) ≤ 8) ∧
      Stretches w.attempts ∧ w.throttle.failureCount ≤ throttleLimit) := by
  intro w
  have hcounted : Counted w := by
    refine sound_play (serve_valid sha256) ?_ ?_ (counted_start passwordHash sessions clock) hmoves
    · intro w i hI houtside
      show Counted (w.leave i) ∧ Yields i w (w.leave i)
      rw [World.leave, if_neg houtside]
      exact ⟨hI, Int.le_refl _, fun j _ hj => ⟨hj, rfl, rfl⟩⟩
    · intro w hI hbetween
      exact ⟨fun _ => hI.idle hbetween, hI.unblocked, hI.account⟩
  refine ⟨hcounted.unblocked, fun hnone => ?_⟩
  have haccount := hcounted.account hnone
  exact ⟨haccount.spread_failed, haccount.stretches, haccount.tally.failureCount_le⟩

/-- Nothing fails but the password. -/
def wrongPassword : (e : Call) → Pick e
  | .lockCredentialGuard => ()
  | .unlockCredentialGuard => ()
  | .now => (1 : Nat)
  | .hasAdmin => true
  | .blockedUntil => true
  | .auditCooldown => true
  | .passwordHash => true
  | .verify _ _ _ => .ok false
  | .recordCredentialFailure _ => Outcome.ok
  | .generateToken => some "token"
  | .newId => (1 : Nat)
  | .insertSession _ _ => Outcome.ok
  | .hash _ => .ok "hash"
  | .changePassword _ => Outcome.ok
  | .selectSession _ => true
  | .deleteExpired _ => Outcome.ok
  | .admits _ _ => ()
  | .accept _ _ => ()
  | .refresh _ _ _ => Outcome.ok
  | .deleteSession _ => Outcome.ok
  | .deleteSessions => Outcome.ok

/-- The same, with a clock that has moved on when it is read. -/
def wrongAfter (elapsed : Nat) : (e : Call) → Pick e
  | .now => elapsed
  | e => wrongPassword e

/-- Thread `i` is a login with a wrong password. -/
def wrongLogin (i elapsed : Nat) : List (interface.Move Request) :=
  .start (.login "admin" "guess") :: List.replicate 7 (.run i (wrongAfter elapsed))

/-- Logins with a wrong password. The first two overlap, and the second waits for the guard; the
fifth blocks the account, the sixth is refused, and the last comes sixteen minutes later. -/
def wrongPasswords : List (interface.Move Request) :=
  [.start (.login "admin" "guess"), .start (.login "admin" "other"),
    .run 0 wrongPassword, .run 1 wrongPassword]
  ++ List.replicate 6 (.run 0 wrongPassword) ++ List.replicate 7 (.run 1 wrongPassword)
  ++ wrongLogin 2 1 ++ wrongLogin 3 1 ++ wrongLogin 4 1 ++ wrongLogin 5 1
  ++ wrongLogin 6 (Instant.minutes 16).toNat

/-- The state after these logins. -/
def afterWrongPasswords : World :=
  (play (interface.move (serve fun _ => []))
    ⟨World.start (some "hash") [] 0, 0, []⟩ wrongPasswords).world

theorem block_and_second_window_bounded :
    afterWrongPasswords.attempts.filterMap Attempt.failedAt =
      [6 + Instant.minutes 16, 5, 4, 3, 2, 1] ∧
    afterWrongPasswords.attempts.countP Attempt.opens = 2 ∧
    (∀ a, (afterWrongPasswords.attempts.filterMap Attempt.failedAt).countP (inInterval a) ≤ 8) ∧
    Stretches afterWrongPasswords.attempts :=
  have h := (failed_verifications_bounded (fun _ => []) (some "hash") [] 0 wrongPasswords
    (by decide +kernel)).2 (by decide +kernel)
  ⟨by decide +kernel, by decide +kernel, h.1, h.2.1⟩

end SoloDock.Auth
