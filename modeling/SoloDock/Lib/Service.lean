import SoloDock.Lib.History
import SoloDock.Lib.Prog

/-!
# A service that can stop anywhere

Requests are admitted, wait, and are served one at a time; admission and serving are
programs over a world. Serving may be given up after any number of calls: the client is
gone, or the process dies. A restart forgets the waiting requests and runs the boot
program, which may itself be cut short. Between the programs the world may change.

`Service.invariant` is the rule for whole histories: an invariant that every program
keeps at every call, under a condition on the calls (`G`) and one on the requests served
(`K`), holds in every state of every history that meets the conditions.
-/

namespace SoloDock.Lib

open Lib.World (meetsCut_true meets_true wp_cut wp_exec)

/-- How a durable change ends: done, or reported as failed with the change made or not. -/
inductive Outcome where
  | ok
  | failed (applied : Bool)
  deriving DecidableEq, Repr

namespace Outcome

def applied : Outcome → Bool
  | ok => true
  | failed applied => applied

def result {ε : Type} (err : ε) : Outcome → Except ε Unit
  | ok => .ok ()
  | failed _ => .error err

/-- What holds before a change and after it holds however it ends. -/
theorem either {W : Type} {I : W → Prop} {w w' : W} (o : Outcome) (h : I w) (h' : I w') :
    I (if o.applied then w' else w) := by
  split
  · exact h'
  · exact h

end Outcome

/-- `Q` are the requests, `A` what an admitted request is served with, `B` the changes
made by others. -/
structure Service (E : Type) (R : E → Type) (W Q A B : Type) where
  world : World E R W
  receive : Q → Prog E R Empty (Option A)
  serve : A → Prog E R Empty Unit
  boot : Prog E R Empty Unit
  change : W → B → W

namespace Service

variable {E : Type} {R : E → Type} {W Q A B : Type} (S : Service E R W Q A B)

/-- The world, and the requests that were admitted and not yet served. -/
structure State (W A : Type) where
  world : W
  waiting : List A

/-- One step of a history; the environment's picks come with it. -/
inductive Step (S : Service E R W Q A B) where
  | receive (request : Q) (o : S.world.Script)
  | serve (index : Nat) (o : S.world.Script)
  | giveUp (index calls : Nat) (o : S.world.Script)
  | restart (o : S.world.Script)
  | restartCut (calls : Nat) (o : S.world.Script)
  | change (b : B)

/-- The result of a program that cannot fail. -/
def value {α : Type} : Except Empty α → α
  | .ok a => a

def step (s : State W A) : Step S → State W A
  | .receive request o =>
    let (r, w) := S.world.exec o 0 (S.receive request) s.world
    ⟨w, s.waiting ++ (value r).toList⟩
  | .serve index o =>
    match s.waiting[index]? with
    | none => s
    | some a => ⟨(S.world.exec o 0 (S.serve a) s.world).2, s.waiting.eraseIdx index⟩
  | .giveUp index calls o =>
    match s.waiting[index]? with
    | none => s
    | some a => ⟨S.world.cut o 0 calls (S.serve a) s.world, s.waiting.eraseIdx index⟩
  | .restart o => ⟨(S.world.exec o 0 S.boot s.world).2, []⟩
  | .restartCut calls o => ⟨S.world.cut o 0 calls S.boot s.world, []⟩
  | .change b => ⟨S.change s.world b, s.waiting⟩

/-- The conditions on a step: on every call it makes, which may depend on the request it
serves, on the state in which a request is served, and on a change made by others. -/
def Allowed (G : Option A → W → (e : E) → S.world.Choice e → Prop) (K : W → A → Prop)
    (L : W → B → Prop) (s : State W A) : Step S → Prop
  | .receive request o => S.world.Meets (G none) o 0 (S.receive request) s.world
  | .serve index o =>
    ∀ a, s.waiting[index]? = some a →
      K s.world a ∧ S.world.Meets (G (some a)) o 0 (S.serve a) s.world
  | .giveUp index calls o =>
    ∀ a, s.waiting[index]? = some a →
      K s.world a ∧ S.world.MeetsCut (G (some a)) o 0 calls (S.serve a) s.world
  | .restart o => S.world.Meets (G none) o 0 S.boot s.world
  | .restartCut calls o => S.world.MeetsCut (G none) o 0 calls S.boot s.world
  | .change b => L s.world b

instance decidableOfGet {α : Type} (o : Option α) (P : α → Prop) [∀ a, Decidable (P a)] :
    Decidable (∀ a, o = some a → P a) :=
  match o with
  | none => .isTrue nofun
  | some a => decidable_of_iff (P a) ⟨fun h _ ha => Option.some.inj ha ▸ h, fun h => h a rfl⟩

instance decidableAllowed {G : Option A → W → (e : E) → S.world.Choice e → Prop}
    {K : W → A → Prop} {L : W → B → Prop} [∀ a w e c, Decidable (G a w e c)]
    [∀ w a, Decidable (K w a)] [∀ w b, Decidable (L w b)] (s : State W A) :
    ∀ a : Step S, Decidable (S.Allowed G K L s a)
  | .receive _ _ => inferInstanceAs (Decidable (World.Meets ..))
  | .serve index _ =>
    inferInstanceAs (Decidable (∀ a, s.waiting[index]? = some a → _ ∧ World.Meets ..))
  | .giveUp index _ _ =>
    inferInstanceAs (Decidable (∀ a, s.waiting[index]? = some a → _ ∧ World.MeetsCut ..))
  | .restart _ => inferInstanceAs (Decidable (World.Meets ..))
  | .restartCut _ _ => inferInstanceAs (Decidable (World.MeetsCut ..))
  | .change _ => inferInstanceAs (Decidable (L _ _))

/-- A condition on the requests served, as a test on a step: nothing is asked of calls. -/
def served (K : W → A → Bool) (s : State W A) : Step S → Bool
  | .serve index _ => (s.waiting[index]?.map (K s.world)).getD true
  | .giveUp index _ _ => (s.waiting[index]?.map (K s.world)).getD true
  | _ => true

variable {S}

/-- A condition on the tasks that are served, as a condition on the steps. -/
theorem allowed_of_served {K : W → A → Bool} {s : State W A} {a : Step S}
    (h : S.served K s a = true) :
    S.Allowed (fun _ _ _ _ => True) (fun w a => K w a = true) (fun _ _ => True) s a := by
  cases a with
  | receive | restart => exact meets_true ..
  | serve index o =>
    intro a hget
    exact ⟨by simpa [served, hget] using h, meets_true ..⟩
  | giveUp index calls o =>
    intro a hget
    exact ⟨by simpa [served, hget] using h, meetsCut_true ..⟩
  | restartCut calls o => exact meetsCut_true ..
  | change b => trivial

/-- Every step is allowed where nothing is asked. -/
theorem allowed_true (s : State W A) (a : Step S) :
    S.Allowed (fun _ _ _ _ => True) (fun _ _ => True) (fun _ _ => True) s a := by
  cases a with
  | receive | restart => exact meets_true ..
  | serve index o => exact fun _ _ => ⟨trivial, meets_true ..⟩
  | giveUp index calls o => exact fun _ _ => ⟨trivial, meetsCut_true ..⟩
  | restartCut calls o => exact meetsCut_true ..
  | change b => trivial

/-- An invariant of the world and the waiting requests that no program breaks: giving a
request up keeps it, and so does every call of a program. -/
structure Keeps (S : Service E R W Q A B) (G : Option A → W → (e : E) → S.world.Choice e → Prop)
    (K : W → A → Prop) (L : W → B → Prop) (I : W → List A → Prop) : Prop where
  forget : ∀ w as i, I w as → I w (as.eraseIdx i)
  forgetAll : ∀ w as, I w as → I w []
  receive : ∀ request w as, I w as →
    S.world.wp (G none) (fun _ => True) (S.receive request)
      (fun (r : Except Empty (Option A)) w' => I w' (as ++ (value r).toList)) w
  serve : ∀ w as i a, as[i]? = some a → I w as → K w a →
    S.world.wp (G (some a)) (I · (as.eraseIdx i)) (S.serve a) (fun _ w' => I w' (as.eraseIdx i)) w
  boot : ∀ w, I w [] → S.world.wp (G none) (I · []) S.boot (fun _ w' => I w' []) w
  change : ∀ w as b, L w b → I w as → I (S.change w b) as

variable {G : Option A → W → (e : E) → S.world.Choice e → Prop} {K : W → A → Prop}
  {L : W → B → Prop} {I : W → List A → Prop}

theorem step_invariant (h : S.Keeps G K L I) {s : State W A}
    {a : Step S} (ha : S.Allowed G K L s a) (hs : I s.world s.waiting) :
    I (S.step s a).world (S.step s a).waiting := by
  cases a with
  | receive request o => exact wp_exec o 0 (h.receive request s.world s.waiting hs) ha
  | serve index o =>
    unfold step
    dsimp only
    split
    · exact hs
    next a hget =>
      obtain ⟨hK, hmeets⟩ := ha a hget
      exact wp_exec o 0 (h.serve s.world s.waiting index a hget hs hK) hmeets
  | giveUp index calls o =>
    unfold step
    dsimp only
    split
    · exact hs
    next a hget =>
      obtain ⟨hK, hmeets⟩ := ha a hget
      exact wp_cut (C := (I · (s.waiting.eraseIdx index))) o 0 calls
        (h.forget s.world s.waiting index hs) (h.serve s.world s.waiting index a hget hs hK) hmeets
  | restart o => exact wp_exec o 0 (h.boot s.world (h.forgetAll _ _ hs)) ha
  | restartCut calls o =>
    have hnone := h.forgetAll _ _ hs
    exact wp_cut (C := (I · [])) o 0 calls hnone (h.boot s.world hnone) ha
  | change b => exact h.change s.world s.waiting b ha hs

/-- The rule for histories that start with no request waiting. -/
theorem invariant (h : S.Keeps G K L I) {w : W}
    {steps : List (Step S)} (hsteps : Along S.step (S.Allowed G K L) ⟨w, []⟩ steps) (hw : I w []) :
    I (play S.step ⟨w, []⟩ steps).world (play S.step ⟨w, []⟩ steps).waiting :=
  hsteps.invariant (I := fun s => I s.world s.waiting) (fun _ _ ha hs => step_invariant h ha hs) hw

theorem allowed_here {s : State W A} {a : Step S} (h : S.Allowed G K L s a) :
    S.Allowed G (fun w b => w = s.world ∧ K w b) L s a := by
  cases a with
  | serve index o => exact fun b hget => ⟨⟨rfl, (h b hget).1⟩, (h b hget).2⟩
  | giveUp index calls o => exact fun b hget => ⟨⟨rfl, (h b hget).1⟩, (h b hget).2⟩
  | _ => exact h

/-- The rule where the condition on the calls of a step may depend on the world in which the
step begins. -/
theorem invariant_from {G : W → Option A → W → (e : E) → S.world.Choice e → Prop}
    (h : ∀ w, S.Keeps (G w) (fun w' b => w' = w ∧ K w' b) L I) {w : W} {steps : List (Step S)}
    (hsteps : Along S.step (fun s => S.Allowed (G s.world) K L s) ⟨w, []⟩ steps) (hw : I w []) :
    I (play S.step ⟨w, []⟩ steps).world (play S.step ⟨w, []⟩ steps).waiting :=
  hsteps.invariant (I := fun s => I s.world s.waiting)
    (fun s _ ha hs => step_invariant (h s.world) (allowed_here ha) hs) hw

end Service

end SoloDock.Lib
