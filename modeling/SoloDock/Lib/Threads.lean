import SoloDock.Lib.History
import SoloDock.Lib.Prog

/-!
# Programs that run side by side

A server runs a handler for each request, and the handlers take turns at their calls.
`Shared` says what one call does to the world they share; a call that has to wait (for a
lock that another handler holds) has no outcome yet. A `Pool` is the world and the rest of
every program that has not ended, and a history of a pool starts programs, lets any of them
make its next call, gives one up, or restarts the process, in any order.

The rule for such histories is a rely-guarantee one. Every step of thread `i` keeps the
invariant `I` and stays within `G i`; between two calls of a thread its own assertion is one
that the steps of the others cannot break (`Stable`). `Valid i p A Q` says this of every
call of `p` started where `A` holds, and `sound_play` that then `I` holds in every state of
every history. What every step keeps between the world before it and the one after it, it keeps
between any two states of a history (`sound_play_between`).
-/

namespace SoloDock.Lib

/-- The calls of programs that share a world. `act w i e c` is the answer to thread `i` and
the world it leaves, `none` if the thread has to wait. `leave` is what a thread gives back
when it is given up, `reboot` what is left of the world after the process. -/
structure Shared (E : Type) (R : E → Type) (W : Type) where
  Choice : E → Type
  act : W → Nat → (e : E) → Choice e → Option (R e × W)
  leave : W → Nat → W
  reboot : W → W

/-- The world, and the programs that have not ended with the ids of their threads. -/
structure Pool (E : Type) (R : E → Type) (W : Type) where
  world : W
  next : Nat
  threads : List (Nat × Prog E R Empty Unit)

namespace Shared

open Prog

variable {E : Type} {R : E → Type} {W Q ε ε' α β : Type} (H : Shared E R W)

/-- One step of a history. Requests are drawn from `Q`. -/
inductive Move (H : Shared E R W) (Q : Type) where
  | start (request : Q)
  | run (id : Nat) (pick : (e : E) → H.Choice e)
  | drop (id : Nat)
  | restart

variable (serve : Q → Prog E R Empty Unit)

def move (s : Pool E R W) : H.Move Q → Pool E R W
  | .start request => ⟨s.world, s.next + 1, (s.next, serve request) :: s.threads⟩
  | .run id pick =>
    match s.threads.lookup id with
    | none => s
    | some (.done ()) => ⟨s.world, s.next, s.threads.filter (·.1 ≠ id)⟩
    | some (.call e k) =>
      match H.act s.world id e (pick e) with
      | none => s
      | some (r, w) => ⟨w, s.next, s.threads.map fun t => if t.1 = id then (id, k r) else t⟩
  | .drop id =>
    match s.threads.lookup id with
    | none => s
    | some _ => ⟨H.leave s.world id, s.next, s.threads.filter (·.1 ≠ id)⟩
  | .restart => ⟨H.reboot s.world, s.next, []⟩

/-- The conditions of a history: `C` on the outcomes picked, `D` on the threads given up,
`B` on the moments of a restart. -/
def Meets (C : W → Nat → (e : E) → H.Choice e → Prop) (D : W → Nat → Prop) (B : W → Prop)
    (s : Pool E R W) : H.Move Q → Prop
  | .start _ => True
  | .run id pick =>
    match s.threads.lookup id with
    | some (.call e _) => C s.world id e (pick e)
    | _ => True
  | .drop id => D s.world id
  | .restart => B s.world

instance decidableMeets (C : W → Nat → (e : E) → H.Choice e → Prop) (D : W → Nat → Prop)
    (B : W → Prop) [∀ w i e c, Decidable (C w i e c)] [∀ w i, Decidable (D w i)]
    [∀ w, Decidable (B w)] (s : Pool E R W) (m : H.Move Q) : Decidable (H.Meets C D B s m) := by
  cases m with
  | start request => exact .isTrue trivial
  | run id pick =>
    show Decidable (match s.threads.lookup id with
      | some (.call e _) => C s.world id e (pick e)
      | _ => True)
    split <;> infer_instance
  | drop id => exact inferInstanceAs (Decidable (D s.world id))
  | restart => exact inferInstanceAs (Decidable (B s.world))

section Rules

variable (C : W → Nat → (e : E) → H.Choice e → Prop) (I : W → Prop) (G : Nat → W → W → Prop)

/-- The steps of other threads keep the assertion `A` of thread `i`. -/
def Stable (I : W → Prop) (G : Nat → W → W → Prop) (i : Nat) (A : W → Prop) : Prop :=
  ∀ j w w', j ≠ i → I w → A w → G j w w' → A w'

/-- Started where `A` holds, every call of thread `i` keeps `I`, stays within `G i` and is
followed by a stable assertion from which the rest is valid again; at the end `Q` holds. -/
def Valid (i : Nat) : Prog E R ε α → (W → Prop) → (Except ε α → W → Prop) → Prop
  | .done a, A, Q => ∀ w, I w → A w → Q (.ok a) w
  | .fail err, A, Q => ∀ w, I w → A w → Q (.error err) w
  | .call e k, A, Q => ∀ w c r w', I w → A w → C w i e c → H.act w i e c = some (r, w') →
      I w' ∧ G i w w' ∧ ∃ A', Stable I G i A' ∧ A' w' ∧ Valid i (k r) A' Q

variable {H C I G} {i : Nat}

theorem stable_true : Stable I G i fun _ => True := fun _ _ _ _ _ _ _ => trivial

variable {A A' : W → Prop} {p : Prog E R ε α}

theorem Stable.and (h : Stable I G i A) (h' : Stable I G i A') : Stable I G i fun w => A w ∧ A' w :=
  fun j w w' hj hI hA hG => ⟨h j w w' hj hI hA.1 hG, h' j w w' hj hI hA.2 hG⟩

theorem valid_conseq {Q Q' : Except ε α → W → Prop}
    (h : H.Valid C I G i p A Q) (hA : ∀ w, I w → A' w → A w)
    (hQ : ∀ r w, I w → Q r w → Q' r w) : H.Valid C I G i p A' Q' := by
  induction p generalizing A A' with
  | done | fail => exact fun w hI hA' => hQ _ w hI (h w hI (hA w hI hA'))
  | call e k ih =>
    intro w c r w' hI hA' hC hact
    obtain ⟨hI', hG, B, hB, hw', hk⟩ := h w c r w' hI (hA w hI hA') hC hact
    exact ⟨hI', hG, B, hB, hw', ih r hk fun _ _ h => h⟩

variable {k : α → Prog E R ε β}

/-- A part with a specification of its own, which the steps of others cannot break. -/
theorem valid_bind {P : Except ε α → W → Prop} {Q : Except ε β → W → Prop}
    (hp : H.Valid C I G i p A P)
    (hok : ∀ a, H.Valid C I G i (k a) (P (.ok a)) Q)
    (herror : ∀ err w, I w → P (.error err) w → Q (.error err) w) :
    H.Valid C I G i (p >>= k) A Q := by
  induction p generalizing A with
  | done a => exact valid_conseq (hok a) (fun w hI hA => hp w hI hA) fun _ _ _ h => h
  | fail err => exact fun w hI hA => herror err w hI (hp w hI hA)
  | call e f ih =>
    intro w c r w' hI hA hC hact
    obtain ⟨hI', hG, B, hB, hw', hf⟩ := hp w c r w' hI hA hC hact
    exact ⟨hI', hG, B, hB, hw', ih r hf⟩

theorem valid_attempt {Q : Except ε' (Except ε α) → W → Prop}
    (hp : H.Valid C I G i p A fun r w => Q (.ok r) w) :
    H.Valid C I G i (p.attempt : Prog E R ε' (Except ε α)) A Q := by
  induction p generalizing A with
  | done a => exact hp
  | fail err => exact hp
  | call e f ih =>
    intro w c r w' hI hA hC hact
    obtain ⟨hI', hG, B, hB, hw', hf⟩ := hp w c r w' hI hA hC hact
    exact ⟨hI', hG, B, hB, hw', ih r hf⟩

/-- A program that makes only calls `F` which keep the invariant, stay within `G i` and keep
the assertion `A`. -/
theorem valid_of_only {F : E → Prop} (hp : p.Only F) (hA : Stable I G i A)
    (hF : ∀ w e c r w', F e → I w → A w → C w i e c → H.act w i e c = some (r, w') →
      I w' ∧ G i w w' ∧ A w') : H.Valid C I G i p A fun _ => A := by
  induction p with
  | done | fail => exact fun w _ hw => hw
  | call e k ih =>
    intro w c r w' hI hw hC hact
    obtain ⟨hI', hG, hw'⟩ := hF w e c r w' hp.1 hI hw hC hact
    exact ⟨hI', hG, A, hA, hw', ih r (hp.2 r)⟩

section Statements

variable {A : W → Prop} {Q : Except ε β → W → Prop}

/-- One call: what holds after it may depend on the answer. -/
theorem valid_call {e : E} {k : R e → Prog E R ε β} (A' : R e → W → Prop)
    (hstable : ∀ r, Stable I G i (A' r))
    (hstep : ∀ w c r w', I w → A w → C w i e c → H.act w i e c = some (r, w') →
      I w' ∧ G i w w' ∧ A' r w')
    (hk : ∀ r, H.Valid C I G i (k r) (A' r) Q) : H.Valid C I G i (ask e >>= k) A Q := by
  intro w c r w' hI hA hC hact
  obtain ⟨hI', hG, hA'⟩ := hstep w c r w' hI hA hC hact
  exact ⟨hI', hG, A' r, hstable r, hA', hk r⟩

theorem valid_ensure_bind {c : Bool} {err : ε} {k : Unit → Prog E R ε β}
    (hok : c = true → H.Valid C I G i (k ()) A Q)
    (herror : c = false → ∀ w, I w → A w → Q (.error err) w) :
    H.Valid C I G i (ensure c err >>= k) A Q := by
  cases c with
  | true => exact hok rfl
  | false => exact herror rfl

theorem valid_orStop_bind {x : Option α} {err : ε}
    (hok : ∀ a, x = some a → H.Valid C I G i (k a) A Q)
    (herror : x = none → ∀ w, I w → A w → Q (.error err) w) :
    H.Valid C I G i (orStop x err >>= k) A Q := by
  cases x with
  | some a => exact hok a rfl
  | none => exact herror rfl

theorem valid_orElse_bind {x : Except ε' α} {f : ε' → ε}
    (hok : ∀ a, x = .ok a → H.Valid C I G i (k a) A Q)
    (herror : ∀ err, x = .error err → ∀ w, I w → A w → Q (.error (f err)) w) :
    H.Valid C I G i (orElse x f >>= k) A Q := by
  cases x with
  | ok a => exact hok a rfl
  | error err => exact herror err rfl

theorem valid_ite {c : Prop} [Decidable c] {p q : Prog E R ε β}
    (hp : c → H.Valid C I G i p A Q) (hq : ¬c → H.Valid C I G i q A Q) :
    H.Valid C I G i (if c then p else q) A Q := by
  by_cases hc : c
  · rw [if_pos hc]
    exact hp hc
  · rw [if_neg hc]
    exact hq hc

end Statements

/-! ## Whole histories -/

/-- The invariant holds, and every thread is where its program is valid. -/
structure Sound (H : Shared E R W) (C : W → Nat → (e : E) → H.Choice e → Prop) (I : W → Prop)
    (G : Nat → W → W → Prop) (s : Pool E R W) : Prop where
  inv : I s.world
  each : ∀ t ∈ s.threads, ∃ A, Stable I G t.1 A ∧ A s.world ∧
    H.Valid C I G t.1 t.2 A fun _ _ => True

theorem lookup_mem {l : List (Nat × β)} {id : Nat} {b : β} (h : l.lookup id = some b) :
    (id, b) ∈ l := by
  induction l with
  | nil => simp at h
  | cons t l ih =>
    obtain ⟨j, b'⟩ := t
    rw [List.lookup_cons] at h
    by_cases hj : id = j
    · subst hj
      obtain rfl : b' = b := by simpa using h
      exact List.mem_cons_self
    · have hne : (id == j) = false := by simpa using hj
      rw [hne] at h
      exact List.mem_cons_of_mem _ (ih h)

/-- A step of thread `i` leaves every other thread where it was. -/
theorem Sound.others {s : Pool E R W} (h : Sound H C I G s) {w : W} (hG : G i s.world w) :
    ∀ t ∈ s.threads, t.1 ≠ i → ∃ A, Stable I G t.1 A ∧ A w ∧
      H.Valid C I G t.1 t.2 A fun _ _ => True := by
  intro t ht hne
  obtain ⟨A, hA, hw, hv⟩ := h.each t ht
  exact ⟨A, hA, hA i _ _ (fun he => hne he.symm) h.inv hw hG, hv⟩

variable {serve : Q → Prog E R Empty Unit} {D : W → Nat → Prop} {B : W → Prop}

section Histories

variable (hserve : ∀ request i, H.Valid C I G i (serve request) (fun _ => True) fun _ _ => True)
  (hdrop : ∀ w i, I w → D w i → I (H.leave w i) ∧ G i w (H.leave w i))
  (hreboot : ∀ w, I w → B w → I (H.reboot w))

include hserve hdrop hreboot

theorem sound_move {s : Pool E R W} {m : H.Move Q} (hm : H.Meets C D B s m)
    (h : Sound H C I G s) : Sound H C I G (H.move serve s m) := by
  cases m with
  | start request =>
    refine ⟨h.inv, fun t ht => ?_⟩
    rcases List.mem_cons.mp ht with rfl | ht
    · exact ⟨fun _ => True, stable_true, trivial, hserve request s.next⟩
    · exact h.each t ht
  | run id pick =>
    unfold move
    unfold Meets at hm
    dsimp only at hm ⊢
    cases hl : s.threads.lookup id with
    | none => exact h
    | some p =>
      obtain ⟨A, hA, hw, hv⟩ := h.each _ (lookup_mem hl)
      cases p with
      | done a => exact ⟨h.inv, fun t ht => h.each t (List.mem_filter.mp ht).1⟩
      | fail err => exact err.elim
      | call e k =>
        rw [hl] at hm
        dsimp only
        cases hact : H.act s.world id e (pick e) with
        | none => exact h
        | some answered =>
          obtain ⟨r, w⟩ := answered
          obtain ⟨hI, hG, A', hA', hw', hk⟩ := hv _ _ _ _ h.inv hw hm hact
          refine ⟨hI, fun t ht => ?_⟩
          obtain ⟨t', ht', rfl⟩ := List.mem_map.mp ht
          by_cases hid : t'.1 = id
          · rw [if_pos hid]
            exact ⟨A', hA', hw', hk⟩
          · rw [if_neg hid]
            exact h.others hG t' ht' hid
  | drop id =>
    unfold move
    dsimp only
    cases s.threads.lookup id with
    | none => exact h
    | some p =>
      obtain ⟨hI, hG⟩ := hdrop _ _ h.inv hm
      refine ⟨hI, fun t ht => ?_⟩
      obtain ⟨ht, hne⟩ := List.mem_filter.mp ht
      exact h.others hG t ht (by simpa using hne)
  | restart => exact ⟨hreboot _ h.inv hm, fun t ht => absurd ht List.not_mem_nil⟩

theorem sound_run {s : Pool E R W} {moves : List (H.Move Q)}
    (hmoves : Along (H.move serve) (H.Meets C D B) s moves) (h : Sound H C I G s) :
    Sound H C I G (play (H.move serve) s moves) :=
  hmoves.invariant (fun _ _ hm => sound_move hserve hdrop hreboot hm) h

omit hserve hdrop hreboot in
theorem sound_start {w : W} (hw : I w) : Sound H C I G (⟨w, 0, []⟩ : Pool E R W) :=
  ⟨hw, fun _ ht => absurd ht List.not_mem_nil⟩

/-- The invariant holds in every state of every history that meets the conditions. -/
theorem sound_play {w : W} (hw : I w) {moves : List (H.Move Q)}
    (hmoves : Along (H.move serve) (H.Meets C D B) ⟨w, 0, []⟩ moves) :
    I (play (H.move serve) ⟨w, 0, []⟩ moves).world :=
  (sound_run hserve hdrop hreboot hmoves (sound_start hw)).inv

variable {K : W → W → Prop} (hrefl : ∀ w, K w w)
  (htrans : ∀ w w' w'', K w w' → K w' w'' → K w w'')
  (hstep : ∀ i w w', G i w w' → K w w') (hboot : ∀ w, K w (H.reboot w))

include hrefl hstep hboot in
omit hserve hreboot in
/-- A step stays within what every thread guarantees. -/
theorem Sound.between {s : Pool E R W} (h : Sound H C I G s) {m : H.Move Q}
    (hm : H.Meets C D B s m) : K s.world (H.move serve s m).world := by
  cases m with
  | start request => exact hrefl _
  | run id pick =>
    unfold move
    unfold Meets at hm
    dsimp only at hm ⊢
    cases hl : s.threads.lookup id with
    | none => exact hrefl _
    | some p =>
      obtain ⟨A, -, hw, hv⟩ := h.each _ (lookup_mem hl)
      cases p with
      | done a => exact hrefl _
      | fail err => exact err.elim
      | call e k =>
        rw [hl] at hm
        dsimp only
        cases hact : H.act s.world id e (pick e) with
        | none => exact hrefl _
        | some answered => exact hstep id _ _ (hv _ _ _ _ h.inv hw hm hact).2.1
  | drop id =>
    unfold move
    dsimp only
    cases s.threads.lookup id with
    | none => exact hrefl _
    | some p => exact hstep id _ _ (hdrop _ _ h.inv hm).2
  | restart => exact hboot _

include hrefl htrans hstep hboot in
theorem sound_play_between {w : W} (hw : I w) {first rest : List (H.Move Q)}
    (hmoves : Along (H.move serve) (H.Meets C D B) ⟨w, 0, []⟩ (first ++ rest)) :
    K (play (H.move serve) ⟨w, 0, []⟩ first).world
      (play (H.move serve) ⟨w, 0, []⟩ (first ++ rest)).world := by
  obtain ⟨hfirst, hrest⟩ := along_append.mp hmoves
  rw [play_append]
  let s := play (H.move serve) ⟨w, 0, []⟩ first
  have hboth : Sound H C I G (play (H.move serve) s rest) ∧
      K s.world (play (H.move serve) s rest).world := by
    refine hrest.invariant (I := fun s' => Sound H C I G s' ∧ K s.world s'.world) ?_
      ⟨sound_run hserve hdrop hreboot hfirst (sound_start hw), hrefl _⟩
    intro s' m hm h
    exact ⟨sound_move hserve hdrop hreboot hm h.1,
      htrans _ _ _ h.2 (h.1.between hdrop hrefl hstep hboot hm)⟩
  exact hboth.2

end Histories

end Rules

end Shared

end SoloDock.Lib
