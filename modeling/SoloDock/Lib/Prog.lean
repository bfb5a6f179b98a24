/-!
# Programs over an interface

A handler of a server is a program that calls an interface (a database, a file
system, a container engine) and decides by the answers. `Prog` is the syntax of
such programs: it returns a value, stops with an error, or makes one call and
continues with the answer.

`Only` bounds the calls a program can make, `Ends` says what it can end with and
`Fails` bounds its errors, all whatever the answers are. What a call answers, and
what it does, is a `World`: each call `e` comes with the outcomes `Choice e` that
the environment may pick, and `act` says what the picked outcome answers and
leaves behind. A run is driven by a script, one outcome per call made:

* `exec` runs a program to its end;
* `cut` runs its first `k` calls, which is all that happens when the process
  dies there.

`wp G C p Q` is the weakest precondition for both: along every run whose calls
all meet `G`, the crash condition `C` holds after each call and `Q` holds of the
result. `wp_exec` and `wp_cut` are its soundness; `wp_bind`, `wp_mono` and
`wp_of_only` (a program that makes only calls preserving `I` preserves `I`) are
the rules the proofs about handlers use.
-/

namespace SoloDock.Lib

/-- A program over the calls `E`, where `e` is answered by an `R e`. It returns an
`α` or stops with an `ε`. -/
inductive Prog (E : Type) (R : E → Type) (ε α : Type) where
  | done (a : α)
  | fail (err : ε)
  | call (e : E) (k : R e → Prog E R ε α)

namespace Prog

variable {E : Type} {R : E → Type} {ε ε' α β : Type}

/-- Sequencing: an error ends the whole program. -/
def bind : Prog E R ε α → (α → Prog E R ε β) → Prog E R ε β
  | done a, f => f a
  | fail err, _ => fail err
  | call e k, f => call e fun r => (k r).bind f

instance : Monad (Prog E R ε) where
  pure := done
  bind := bind

/-- Make one call and return its answer. -/
def ask (e : E) : Prog E R ε (R e) :=
  call e done

/-- Stop with an error. -/
def stop (err : ε) : Prog E R ε α :=
  fail err

/-- Stop with `err` unless `c` holds. -/
def ensure (c : Bool) (err : ε) : Prog E R ε Unit :=
  if c then done () else fail err

/-- The value of an option, or stop with `err`. -/
def orStop (o : Option α) (err : ε) : Prog E R ε α :=
  match o with
  | some a => done a
  | none => fail err

/-- The value of a result, its error mapped by `f`. -/
def orElse (r : Except ε' α) (f : ε' → ε) : Prog E R ε α :=
  match r with
  | .ok a => done a
  | .error err => fail (f err)

/-- The value of a result, or stop with its error. -/
def accept (r : Except ε α) : Prog E R ε α :=
  orElse r id

/-- Run a program and hand its result, error included, to the next one. -/
def attempt : Prog E R ε α → Prog E R ε' (Except ε α)
  | done a => done (.ok a)
  | fail err => done (.error err)
  | call e k => call e fun r => (k r).attempt

/-- What is left of a program when each of its next calls was answered by one of these. -/
def resume : List ((e : E) → R e) → Prog E R ε α → Prog E R ε α
  | answers :: rest, call e k => resume rest (k (answers e))
  | _, p => p

/-- The program has ended with a value. -/
def returned : Prog E R ε α → Bool
  | done _ => true
  | _ => false

theorem returned_iff {p : Prog E R ε α} : p.returned = true ↔ ∃ a, p = done a := by
  cases p <;> simp [returned]

/-- Every call the program can make satisfies `p`, whatever the answers are. -/
def Only (p : E → Prop) : Prog E R ε α → Prop
  | done _ => True
  | fail _ => True
  | call e k => p e ∧ ∀ r, (k r).Only p

variable {f : α → Prog E R ε β}

section Only

variable {p : E → Prop}

@[simp] theorem only_pure (a : α) : (pure a : Prog E R ε α).Only p := trivial

@[simp] theorem only_stop (err : ε) : (stop err : Prog E R ε α).Only p := trivial

@[simp] theorem only_ask (e : E) : (ask e : Prog E R ε (R e)).Only p ↔ p e := by
  simp [ask, Only]

@[simp] theorem only_ensure (c : Bool) (err : ε) : (ensure c err : Prog E R ε Unit).Only p := by
  unfold ensure
  split <;> trivial

@[simp] theorem only_orStop (o : Option α) (err : ε) : (orStop o err : Prog E R ε α).Only p := by
  cases o <;> trivial

@[simp] theorem only_orElse (r : Except ε' α) (f : ε' → ε) :
    (orElse r f : Prog E R ε α).Only p := by
  cases r <;> trivial

variable {x : Prog E R ε α}

theorem only_bind (hx : x.Only p) (hf : ∀ a, (f a).Only p) : (x >>= f).Only p := by
  induction x with
  | done a => exact hf a
  | fail err => trivial
  | call e k ih => exact ⟨hx.1, fun r => ih r (hx.2 r)⟩

theorem only_call {e : E} {k : R e → Prog E R ε β} (he : p e) (hk : ∀ r, (k r).Only p) :
    (ask e >>= k).Only p := ⟨he, hk⟩

theorem only_ensure_bind {c : Bool} {err : ε} {k : Unit → Prog E R ε β} (hk : ∀ u, (k u).Only p) :
    (ensure c err >>= k).Only p := only_bind (only_ensure c err) hk

variable {k : α → Prog E R ε β}

theorem only_orStop_bind {o : Option α} {err : ε}
    (hk : ∀ a, (k a).Only p) : (orStop o err >>= k).Only p := only_bind (only_orStop o err) hk

theorem only_orElse_bind {r : Except ε' α} {f : ε' → ε}
    (hk : ∀ a, (k a).Only p) : (orElse r f >>= k).Only p := only_bind (only_orElse r f) hk

theorem only_attempt (hx : x.Only p) : (x.attempt : Prog E R ε' (Except ε α)).Only p := by
  induction x with
  | done a => trivial
  | fail err => trivial
  | call e k ih => exact ⟨hx.1, fun r => ih r (hx.2 r)⟩

theorem Only.mono {q : E → Prop} (hx : x.Only p) (h : ∀ e, p e → q e) : x.Only q := by
  induction x with
  | done a => trivial
  | fail err => trivial
  | call e k ih => exact ⟨h e hx.1, fun r => ih r (hx.2 r)⟩

end Only

/-- The program can end with `r`: some sequence of answers leads there. -/
def Ends : Prog E R ε α → Except ε α → Prop
  | done a, r => r = .ok a
  | fail err, r => r = .error err
  | call _ k, r => ∃ answer, (k answer).Ends r

section Ends

@[simp] theorem ends_pure (a : α) (r : Except ε α) :
    (pure a : Prog E R ε α).Ends r ↔ r = .ok a := Iff.rfl

@[simp] theorem ends_stop (err : ε) (r : Except ε α) :
    (stop err : Prog E R ε α).Ends r ↔ r = .error err := Iff.rfl

@[simp] theorem ends_ensure (c : Bool) (err : ε) (r : Except ε Unit) :
    (ensure c err : Prog E R ε Unit).Ends r ↔
      (c = true ∧ r = .ok ()) ∨ (c = false ∧ r = .error err) := by
  cases c <;> simp [ensure, Ends]

@[simp] theorem ends_orStop (o : Option α) (err : ε) (r : Except ε α) :
    (orStop o err : Prog E R ε α).Ends r ↔
      (∃ a, o = some a ∧ r = .ok a) ∨ (o = none ∧ r = .error err) := by
  cases o <;> simp [orStop, Ends]

@[simp] theorem ends_orElse (x : Except ε' α) (f : ε' → ε) (r : Except ε α) :
    (orElse x f : Prog E R ε α).Ends r ↔
      (∃ a, x = .ok a ∧ r = .ok a) ∨ (∃ err, x = .error err ∧ r = .error (f err)) := by
  cases x <;> simp [orElse, Ends]

/-- A bind ends with its continuation's result, or with the first program's error. -/
@[simp] theorem ends_bind (x : Prog E R ε α) (f : α → Prog E R ε β) (r : Except ε β) :
    (x >>= f).Ends r ↔
      (∃ a, x.Ends (.ok a) ∧ (f a).Ends r) ∨ (∃ err, x.Ends (.error err) ∧ r = .error err) := by
  induction x with
  | done a =>
    show (f a).Ends r ↔ _
    simp [Ends]
  | fail err =>
    show r = .error err ↔ _
    simp [Ends]
  | call e k ih =>
    show (∃ answer, ((k answer) >>= f).Ends r) ↔ _
    simp only [ih, Ends]
    constructor
    · rintro ⟨answer, ⟨a, hx, hf⟩ | ⟨err, hx, hr⟩⟩
      · exact .inl ⟨a, ⟨answer, hx⟩, hf⟩
      · exact .inr ⟨err, ⟨answer, hx⟩, hr⟩
    · rintro (⟨a, ⟨answer, hx⟩, hf⟩ | ⟨err, ⟨answer, hx⟩, hr⟩)
      · exact ⟨answer, .inl ⟨a, hx, hf⟩⟩
      · exact ⟨answer, .inr ⟨err, hx, hr⟩⟩

@[simp] theorem ends_ite (c : Prop) [Decidable c] (p q : Prog E R ε α) (r : Except ε α) :
    (if c then p else q).Ends r ↔ (c ∧ p.Ends r) ∨ (¬c ∧ q.Ends r) := by
  by_cases hc : c <;> simp [hc]

/-- Every error the program can stop with satisfies `P`. -/
def Fails (P : ε → Prop) (p : Prog E R ε α) : Prop :=
  ∀ err, p.Ends (.error err) → P err

variable {P : ε → Prop}

theorem fails_pure (a : α) : (pure a : Prog E R ε α).Fails P := by
  intro err h
  simp at h

variable {err : ε}

theorem fails_stop (h : P err) : (stop err : Prog E R ε α).Fails P := by
  intro err' h'
  obtain rfl : err' = err := by simpa using h'
  exact h

theorem fails_call {e : E} {k : R e → Prog E R ε α} (h : ∀ answer, (k answer).Fails P) :
    (call e k).Fails P := fun err ⟨answer, h'⟩ => h answer err h'

theorem fails_ensure {c : Bool} (h : P err) : (ensure c err : Prog E R ε Unit).Fails P := by
  intro err' h'
  obtain ⟨_, rfl⟩ : c = false ∧ err' = err := by simpa using h'
  exact h

theorem fails_orStop {o : Option α} (h : P err) : (orStop o err : Prog E R ε α).Fails P := by
  intro err' h'
  obtain ⟨_, rfl⟩ : o = none ∧ err' = err := by simpa using h'
  exact h

/-- A program fails within `P` if both its parts do. -/
theorem fails_bind {x : Prog E R ε α} (hx : x.Fails P)
    (hf : ∀ a, (f a).Fails P) : (x >>= f).Fails P := by
  intro err h
  rcases (ends_bind x f _).mp h with ⟨a, _, h⟩ | ⟨err', h, heq⟩
  · exact hf a err h
  · cases heq
    exact hx err h

theorem fails_ite {c : Prop} [Decidable c] {p q : Prog E R ε α} (hp : p.Fails P)
    (hq : q.Fails P) : (if c then p else q).Fails P := by
  split
  · exact hp
  · exact hq

end Ends

/-! ## Programs over a lower interface -/

section Handle

variable {F : Type} {T : F → Type}

/-- Every call is carried out by a program over another interface. -/
def handle (f : (e : E) → Prog F T ε (R e)) : Prog E R ε α → Prog F T ε α
  | done a => done a
  | fail err => fail err
  | call e k => (f e).bind fun r => handle f (k r)

variable (f : (e : E) → Prog F T ε (R e))

theorem bind_assoc (x : Prog E R ε α) (g : α → Prog E R ε β)
    (h : β → Prog E R ε γ) : (x >>= g) >>= h = x >>= fun a => g a >>= h := by
  induction x with
  | done a => rfl
  | fail err => rfl
  | call e k ih => exact congrArg (call e) (funext ih)

@[simp] theorem handle_pure (a : α) : handle f (pure a : Prog E R ε α) = pure a := rfl

@[simp] theorem handle_bind (x : Prog E R ε α) (g : α → Prog E R ε β) :
    handle f (x >>= g) = handle f x >>= fun a => handle f (g a) := by
  induction x with
  | done a => rfl
  | fail err => rfl
  | call e k ih =>
    show f e >>= (fun r => handle f (k r >>= g)) = (f e >>= fun r => handle f (k r)) >>= _
    rw [bind_assoc]
    exact congrArg _ (funext ih)

@[simp] theorem handle_ensure (c : Bool) (err : ε) :
    handle f (ensure c err : Prog E R ε Unit) = ensure c err := by
  cases c <;> rfl

@[simp] theorem handle_orStop (o : Option α) (err : ε) :
    handle f (orStop o err : Prog E R ε α) = orStop o err := by
  cases o <;> rfl

@[simp] theorem handle_orElse (r : Except ε' α) (g : ε' → ε) :
    handle f (orElse r g : Prog E R ε α) = orElse r g := by
  cases r <;> rfl

@[simp] theorem handle_ite (c : Prop) [Decidable c] (x y : Prog E R ε α) :
    handle f (if c then x else y) = if c then handle f x else handle f y := by
  by_cases hc : c <;> simp [hc]

end Handle

end Prog

/-- What the calls of an interface do to a world `W`: the environment picks one
outcome of `Choice e`, and `act` gives the answer and the world it leaves. -/
structure World (E : Type) (R : E → Type) (W : Type) where
  Choice : E → Type
  act : W → (e : E) → Choice e → R e × W

namespace World

open Prog

variable {E : Type} {R : E → Type} {W ε ε' α β : Type} (H : World E R W)

/-- The environment's picks: for the `n`-th call of a run, an outcome of whatever
call is made there. -/
abbrev Script := Nat → (e : E) → H.Choice e

/-- The result of a run under a script, and the world it leaves. `n` calls have
been made before. -/
def exec (o : H.Script) : Nat → Prog E R ε α → W → Except ε α × W
  | _, .done a, w => (.ok a, w)
  | _, .fail err, w => (.error err, w)
  | n, .call e k, w => exec o (n + 1) (k (H.act w e (o n e)).1) (H.act w e (o n e)).2

/-- The world left by the first `k` calls of a run: the process dies there. -/
def cut (o : H.Script) : Nat → Nat → Prog E R ε α → W → W
  | n, k + 1, .call e f, w => cut o (n + 1) k (f (H.act w e (o n e)).1) (H.act w e (o n e)).2
  | _, _, _, w => w

@[simp] theorem cut_zero (o : H.Script) (n : Nat) (p : Prog E R ε α) (w : W) :
    H.cut o n 0 p w = w := by
  cases p <;> rfl

/-- Every call of the run meets the condition `G` on the world before it, the call
and the outcome picked. -/
def Meets (G : W → (e : E) → H.Choice e → Prop) (o : H.Script) :
    Nat → Prog E R ε α → W → Prop
  | _, .done _, _ => True
  | _, .fail _, _ => True
  | n, .call e k, w =>
    G w e (o n e) ∧ Meets G o (n + 1) (k (H.act w e (o n e)).1) (H.act w e (o n e)).2

/-- The first `k` calls of the run meet `G`. -/
def MeetsCut (G : W → (e : E) → H.Choice e → Prop) (o : H.Script) :
    Nat → Nat → Prog E R ε α → W → Prop
  | n, k + 1, .call e f, w =>
    G w e (o n e) ∧ MeetsCut G o (n + 1) k (f (H.act w e (o n e)).1) (H.act w e (o n e)).2
  | _, _, _, _ => True

instance decidableMeets {H : World E R W} {G : W → (e : E) → H.Choice e → Prop}
    [∀ w e c, Decidable (G w e c)] (o : H.Script) :
    ∀ (n : Nat) (p : Prog E R ε α) (w : W), Decidable (H.Meets G o n p w)
  | _, .done _, _ => .isTrue trivial
  | _, .fail _, _ => .isTrue trivial
  | n, .call e k, w =>
    have := decidableMeets (G := G) o (n + 1) (k (H.act w e (o n e)).1) (H.act w e (o n e)).2
    inferInstanceAs (Decidable (_ ∧ _))

instance decidableMeetsCut {H : World E R W} {G : W → (e : E) → H.Choice e → Prop}
    [∀ w e c, Decidable (G w e c)] (o : H.Script) :
    ∀ (n k : Nat) (p : Prog E R ε α) (w : W), Decidable (H.MeetsCut G o n k p w)
  | _, 0, .done _, _ => .isTrue trivial
  | _, _ + 1, .done _, _ => .isTrue trivial
  | _, 0, .fail _, _ => .isTrue trivial
  | _, _ + 1, .fail _, _ => .isTrue trivial
  | _, 0, .call _ _, _ => .isTrue trivial
  | n, k + 1, .call e f, w =>
    have := decidableMeetsCut (G := G) o (n + 1) k (f (H.act w e (o n e)).1) (H.act w e (o n e)).2
    inferInstanceAs (Decidable (_ ∧ _))

variable {o : H.Script} {G : W → (e : E) → H.Choice e → Prop}

/-- A script that meets the condition everywhere meets it along every run. -/
theorem meets_of_forall
    (h : ∀ n w e, G w e (o n e)) (n : Nat) (p : Prog E R ε α) (w : W) : H.Meets G o n p w := by
  induction p generalizing n w with
  | done a => trivial
  | fail err => trivial
  | call e k ih => exact ⟨h n w e, ih _ _ _⟩

theorem meets_true (o : H.Script) (n : Nat) (p : Prog E R ε α) (w : W) :
    H.Meets (fun _ _ _ => True) o n p w :=
  meets_of_forall H (fun _ _ _ => trivial) n p w

theorem meetsCut_of_forall (h : ∀ n w e, G w e (o n e)) (n k : Nat) (p : Prog E R ε α) (w : W) :
    H.MeetsCut G o n k p w := by
  induction p generalizing n k w with
  | done | fail => cases k <;> trivial
  | call e f ih =>
    cases k with
    | zero => trivial
    | succ k => exact ⟨h n w e, ih _ _ _ _⟩

theorem meetsCut_true (o : H.Script) (n k : Nat) (p : Prog E R ε α) (w : W) :
    H.MeetsCut (fun _ _ _ => True) o n k p w :=
  meetsCut_of_forall H (fun _ _ _ => trivial) n k p w

/-- Weakest precondition. Along every run whose calls meet `G`, the crash condition
`C` holds after each call and `Q` holds of the result. -/
def wp (G : W → (e : E) → H.Choice e → Prop) (C : W → Prop) :
    Prog E R ε α → (Except ε α → W → Prop) → W → Prop
  | .done a, Q, w => Q (.ok a) w
  | .fail err, Q, w => Q (.error err) w
  | .call e k, Q, w =>
    ∀ c, G w e c → C (H.act w e c).2 ∧ wp G C (k (H.act w e c).1) Q (H.act w e c).2

variable {H} {C : W → Prop}

/-! ## Soundness -/

/-- A run under the condition ends as the weakest precondition says. -/
theorem wp_exec (o : H.Script) :
    ∀ {p : Prog E R ε α} {Q : Except ε α → W → Prop} {w : W} (n : Nat), H.wp G C p Q w →
      H.Meets G o n p w → Q (H.exec o n p w).1 (H.exec o n p w).2
  | .done _, _, _, _, h, _ => h
  | .fail _, _, _, _, h, _ => h
  | .call e _, _, _, n, h, hm => wp_exec o (n + 1) (h (o n e) hm.1).2 hm.2

/-- A run that is cut off stops in a state that `C` allows. -/
theorem wp_cut (o : H.Script) :
    ∀ {p : Prog E R ε α} {Q : Except ε α → W → Prop} {w : W} (n k : Nat), C w →
      H.wp G C p Q w → H.MeetsCut G o n k p w → C (H.cut o n k p w)
  | .done .., _, _, _, 0, hw, _, _ | .done .., _, _, _, _ + 1, hw, _, _
  | .fail .., _, _, _, 0, hw, _, _ | .fail .., _, _, _, _ + 1, hw, _, _
  | .call .., _, _, _, 0, hw, _, _ => hw
  | .call e _, _, _, n, k + 1, _, h, hm =>
    have step := h (o n e) hm.1
    wp_cut o (n + 1) k step.1 step.2 hm.2

/-! ## Rules -/

variable {p : Prog E R ε α} {Q Q' : Except ε α → W → Prop} {w : W}

theorem wp_mono (h : H.wp G C p Q w) (hQ : ∀ r w, Q r w → Q' r w) : H.wp G C p Q' w := by
  induction p generalizing w with
  | done | fail => exact hQ _ _ h
  | call e k ih => exact fun c hc => ⟨(h c hc).1, ih _ (h c hc).2⟩

/-- Runs that meet more, and less asked of them. -/
theorem wp_weaken {G' : W → (e : E) → H.Choice e → Prop} {C' : W → Prop} (h : H.wp G C p Q w)
    (hG : ∀ w e c, G' w e c → G w e c) (hC : ∀ w, C w → C' w) (hQ : ∀ r w, Q r w → Q' r w) :
    H.wp G' C' p Q' w := by
  induction p generalizing w with
  | done | fail => exact hQ _ _ h
  | call e k ih =>
    intro c hc
    obtain ⟨hcrash, hrest⟩ := h c (hG w e c hc)
    exact ⟨hC _ hcrash, ih _ hrest⟩

/-- What the continuation of a bind must establish after `r`. -/
def After (G : W → (e : E) → H.Choice e → Prop) (C : W → Prop) (f : α → Prog E R ε β)
    (Q : Except ε β → W → Prop) : Except ε α → W → Prop
  | .ok a, w => H.wp G C (f a) Q w
  | .error err, w => Q (.error err) w

@[simp] theorem after_ok (f : α → Prog E R ε β) (Q : Except ε β → W → Prop) (a : α) (w : W) :
    After G C f Q (.ok a) w ↔ H.wp G C (f a) Q w := Iff.rfl

@[simp] theorem wp_bind (p : Prog E R ε α) (f : α → Prog E R ε β)
    (Q : Except ε β → W → Prop) (w : W) :
    H.wp G C (p >>= f) Q w ↔ H.wp G C p (After G C f Q) w := by
  induction p generalizing w with
  | done | fail => exact Iff.rfl
  | call e k ih =>
    exact forall_congr' fun c => imp_congr_right fun _ => and_congr_right fun _ => ih _ _

@[simp] theorem wp_ensure (c : Bool) (err : ε) (Q : Except ε Unit → W → Prop) (w : W) :
    H.wp G C (ensure c err) Q w ↔ (c = true → Q (.ok ()) w) ∧ (c = false → Q (.error err) w) := by
  cases c <;> simp [ensure, wp]

@[simp] theorem wp_orStop (x : Option α) (err : ε) (Q : Except ε α → W → Prop) (w : W) :
    H.wp G C (orStop x err) Q w ↔
      (∀ a, x = some a → Q (.ok a) w) ∧ (x = none → Q (.error err) w) := by
  cases x <;> simp [orStop, wp]

@[simp] theorem wp_orElse (r : Except ε' α) (f : ε' → ε) (Q : Except ε α → W → Prop) (w : W) :
    H.wp G C (orElse r f) Q w ↔
      (∀ a, r = .ok a → Q (.ok a) w) ∧ (∀ err, r = .error err → Q (.error (f err)) w) := by
  cases r <;> simp [orElse, wp]

@[simp] theorem wp_accept (r : Except ε α) (Q : Except ε α → W → Prop) (w : W) :
    H.wp G C (accept r) Q w ↔ Q r w := by
  cases r <;> exact Iff.rfl

@[simp] theorem wp_ite (c : Prop) [Decidable c] (p q : Prog E R ε α)
    (Q : Except ε α → W → Prop) (w : W) : H.wp G C (if c then p else q) Q w ↔
      (c → H.wp G C p Q w) ∧ (¬c → H.wp G C q Q w) := by
  by_cases hc : c <;> simp [hc]

@[simp] theorem wp_attempt (p : Prog E R ε α) (Q : Except ε' (Except ε α) → W → Prop) (w : W) :
    H.wp G C (p.attempt : Prog E R ε' (Except ε α)) Q w ↔
      H.wp G C p (fun r w => Q (.ok r) w) w := by
  induction p generalizing w with
  | done | fail => exact Iff.rfl
  | call e k ih =>
    exact forall_congr' fun c => imp_congr_right fun _ => and_congr_right fun _ => ih _ _

/-! The same rules as goals for a program read from its first statement on. -/

section Statements

variable {Q : Except ε β → W → Prop} {w : W} {e : E} {k : R e → Prog E R ε β}

theorem wp_call
    (h : ∀ c, G w e c → C (H.act w e c).2 ∧ H.wp G C (k (H.act w e c).1) Q (H.act w e c).2) :
    H.wp G C (ask e >>= k) Q w := h

theorem wp_if {c : Prop} [Decidable c] {p q : Prog E R ε β} (hp : c → H.wp G C p Q w)
    (hq : ¬c → H.wp G C q Q w) : H.wp G C (if c then p else q) Q w :=
  (wp_ite _ _ _ _ _).mpr ⟨hp, hq⟩

/-- A call that changes nothing. -/
theorem wp_look (hquiet : (fun c => (H.act w e c).2) = fun _ => w)
    (hw : C w) (h : ∀ c, G w e c → H.wp G C (k (H.act w e c).1) Q w) : H.wp G C (ask e >>= k) Q w :=
  wp_call fun c hc => by
    have hstate : (H.act w e c).2 = w := congrFun hquiet c
    rw [hstate]
    exact ⟨hw, h c hc⟩

variable {k : α → Prog E R ε β}

theorem wp_accept_bind {r : Except ε α} (hok : ∀ a, r = .ok a → H.wp G C (k a) Q w)
    (herror : ∀ err, r = .error err → Q (.error err) w) : H.wp G C (accept r >>= k) Q w := by
  cases r with
  | ok a => exact hok a rfl
  | error err => exact herror err rfl

theorem wp_ensure_bind {c : Bool} {err : ε} {k : Unit → Prog E R ε β}
    (hok : c = true → H.wp G C (k ()) Q w) (herror : c = false → Q (.error err) w) :
    H.wp G C (ensure c err >>= k) Q w := by
  cases c with
  | true => exact hok rfl
  | false => exact herror rfl

theorem wp_orStop_bind {x : Option α} {err : ε}
    (hok : ∀ a, x = some a → H.wp G C (k a) Q w) (herror : x = none → Q (.error err) w) :
    H.wp G C (orStop x err >>= k) Q w := by
  cases x with
  | some a => exact hok a rfl
  | none => exact herror rfl

theorem wp_orElse_bind {r : Except ε' α} {f : ε' → ε} (hok : ∀ a, r = .ok a → H.wp G C (k a) Q w)
    (herror : ∀ err, r = .error err → Q (.error (f err)) w) : H.wp G C (orElse r f >>= k) Q w := by
  cases r with
  | ok a => exact hok a rfl
  | error err => exact herror err rfl

/-- A part of the program with a specification of its own. -/
theorem wp_part {P : Except ε α → W → Prop}
    (hp : H.wp G C p P w) (hok : ∀ a w, P (.ok a) w → H.wp G C (k a) Q w)
    (herror : ∀ err w, P (.error err) w → Q (.error err) w) : H.wp G C (p >>= k) Q w := by
  rw [wp_bind]
  refine wp_mono hp fun r w h => ?_
  cases r with
  | ok a => exact hok a w h
  | error err => exact herror err w h

/-- A part run for its result, whichever it is. -/
theorem wp_attempt_bind {p : Prog E R ε' α} {k : Except ε' α → Prog E R ε β}
    {P : Except ε' α → W → Prop} (hp : H.wp G C p P w)
    (hk : ∀ r w, P r w → H.wp G C (k r) Q w) : H.wp G C (p.attempt >>= k) Q w := by
  rw [wp_bind, wp_attempt]
  exact wp_mono hp fun r w h => hk r w h

end Statements

/-- A program that makes only calls preserving `I` preserves `I`. -/
theorem wp_of_only {F : E → Prop} {I : W → Prop} (hp : p.Only F)
    (hI : ∀ w e c, F e → G w e c → I w → I (H.act w e c).2) (hC : ∀ w, I w → C w) (hw : I w) :
    H.wp G C p (fun _ => I) w := by
  induction p generalizing w with
  | done a => exact hw
  | fail err => exact hw
  | call e k ih =>
    intro c hc
    have hw' := hI w e c hp.1 hc hw
    exact ⟨hC _ hw', ih _ (hp.2 _) hw'⟩

/-- What holds after some calls of a program that makes only calls preserving it holds
after more of them. -/
theorem cut_of_only {F : E → Prop} {I : W → Prop} (o : H.Script)
    (hI : ∀ w e c, F e → I w → I (H.act w e c).2) :
    ∀ {p : Prog E R ε α} {w : W} (n k j : Nat), p.Only F → I (H.cut o n k p w) →
      I (H.cut o n (k + j) p w)
  | .done .., _, _, k, j, _, h | .fail .., _, _, k, j, _, h => by cases k <;> cases j <;> exact h
  | .call _ _, w, n, 0, 0, _, h => h
  | .call e f, w, n, 0, j + 1, hp, h => by
    rw [Nat.zero_add]
    have hnext : I (H.cut o (n + 1) 0 (f (H.act w e (o n e)).1) (H.act w e (o n e)).2) := by
      rw [cut_zero]
      exact hI w e (o n e) hp.1 h
    have hrest := cut_of_only o hI (n + 1) 0 j (hp.2 _) hnext
    rw [Nat.zero_add] at hrest
    exact hrest
  | .call e f, w, n, k + 1, j, hp, h => by
    rw [Nat.add_right_comm]
    exact cut_of_only o hI (n + 1) k j (hp.2 _) h

end World

end SoloDock.Lib
