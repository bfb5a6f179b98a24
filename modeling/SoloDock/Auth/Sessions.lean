import SoloDock.Auth.Attempts
import SoloDock.Lib.Sha256

/-!
# The lifetime of a session

Requests read a session's row without the guard, so a row may be refreshed, deleted or
replaced between the steps of a request. What a request knows of the row it read stays true
all the same, because it is about the account: the session was created then, was seen then,
and was alive when the request began.

The last part needs a condition. The refresh of `authenticate` is an `UPDATE` by id alone, so one
that is late replaces a deadline that has passed, and the session is alive again
(`expired_session_accepted`). `Timely` excludes such a write; the results that do without it take
`strict` to be false.

`Lawful` is the invariant of every history: each row of the table is one of a session that
has not ended, and each request that was accepted had read a live one in time.
-/

namespace SoloDock.Auth

open Lib Lib.Prog Lib.Shared
open List (mem_cons mem_cons_of_mem mem_cons_self not_mem_nil)

/-! ## What the account says of a session -/

/-- The event ends the session `s`. -/
def Event.ends (s : Session) : Event → Prop
  | .expired id => id = s.id
  | .loggedOut tokenHash => tokenHash = s.tokenHash
  | .revoked => True
  | .passwordChanged _ => True
  | _ => False

/-- The session was created and has ended: a request found it expired, its user logged out,
all sessions were revoked or the password was changed. -/
def Over (log : List Event) (id : Uuid) : Prop :=
  ∃ later e earlier s verified inForce, log = later ++ e :: earlier ∧
    .created s verified inForce ∈ earlier ∧ s.id = id ∧ e.ends s

/-- A login has created the session. -/
def Known (log : List Event) (id : Uuid) : Prop :=
  ∃ s verified inForce, .created s verified inForce ∈ log ∧ s.id = id

/-- The session was created, and no row of it is left whose deadlines lie ahead: it has expired,
was logged out or was invalidated. -/
def Ended (w : World) (id : Uuid) : Prop :=
  Known w.log id ∧ ∀ s ∈ w.sessions, s.id = id → s.ExpiredAt w.clock

/-- At `now` the session had been created less than twelve hours before, and it had been created
or a request had found it alive less than an hour before. -/
def Recent (earlier : List Event) (id : Uuid) (now : Int) : Prop :=
  ∃ s verified inForce, .created s verified inForce ∈ earlier ∧ s.id = id ∧
    s.createdAt ≤ now ∧ now < s.createdAt + absoluteTtl ∧
    (now < s.createdAt + idleTtl ∨
      ∃ j t, .admitted j id t ∈ earlier ∧ t ≤ now ∧ now < t + idleTtl)

/-- If the session had been created when request `i` began, it was alive then. -/
def LiveAtStart (earlier : List Event) (i : Nat) (id : Uuid) : Prop :=
  ∀ later live before, earlier = later ++ .began i live :: before →
    (∀ live, .began i live ∉ later) → Known before id → id ∈ live

/-- Request `i` was found to be one of the session at `now`, rightly; if `strict`, the session was
alive when it began. -/
def Admitted (strict : Prop) (log : List Event) (i : Nat) (id : Uuid) (now : Int) : Prop :=
  ∃ mid before, log = mid ++ .admitted i id now :: before ∧ (∀ live, .began i live ∉ mid) ∧
    Recent before id now ∧ (strict → LiveAtStart before i id)

/-- A refresh is written before the deadlines that it replaces have passed. -/
def Timely (strict : Prop) (w : World) (_ : Nat) : (e : Call) → Pick e → Prop
  | .refresh id _ _, (outcome : Outcome) => strict → outcome.applied = true →
      ∀ s ∈ w.sessions, s.id = id → ¬s.ExpiredAt w.clock
  | _, _ => True

instance (strict : Prop) [Decidable strict] (w : World) (i : Nat) (e : Call) (c : Pick e) :
    Decidable (Timely strict w i e c) :=
  match e, c with
  | .refresh id _ _, (outcome : Outcome) =>
    inferInstanceAs (Decidable (strict → outcome.applied = true →
      ∀ s ∈ w.sessions, s.id = id → ¬s.ExpiredAt w.clock))
  | .lockCredentialGuard, _ | .unlockCredentialGuard, _ | .now, _ | .hasAdmin, _
  | .blockedUntil, _ | .auditCooldown, _ | .passwordHash, _ | .verify _ _ _, _
  | .recordCredentialFailure _, _ | .generateToken, _ | .newId, _ | .insertSession _ _, _
  | .hash _, _ | .changePassword _, _ | .selectSession _, _ | .deleteExpired _, _
  | .admits _ _, _ | .accept _ _, _ | .deleteSession _, _ | .deleteSessions, _ => .isTrue trivial

variable {strict : Prop} {w w' : World} {j : Nat} {e : Event} {log : List Event} {id : Uuid}
  {i : Nat}

theorem Known.mono (h : Known log id) {log' : List Event} (hlog : ∀ e ∈ log, e ∈ log') :
    Known log' id := by
  obtain ⟨s, v, f, hs, hid⟩ := h
  exact ⟨s, v, f, hlog _ hs, hid⟩

theorem Session.ExpiredAt.mono {s : Session} {now later : Int} (h : s.ExpiredAt now)
    (hle : now ≤ later) : s.ExpiredAt later :=
  h.imp (Int.le_trans · hle) (Int.le_trans · hle)

/-- A session stays ended if the rows that are new to the table are of other sessions. -/
theorem Ended.mono (h : Ended w id) (hclock : w.clock ≤ w'.clock)
    (hlog : ∀ e ∈ w.log, e ∈ w'.log)
    (hrows : ∀ s ∈ w'.sessions, s.id = id → s ∈ w.sessions) : Ended w' id :=
  ⟨h.1.mono hlog, fun s hs hid => (h.2 s (hrows s hs hid) hid).mono hclock⟩

/-- A session that is not among the live ones has ended. -/
theorem ended_of_not_live (hknown : Known w.log id) (hlive : id ∉ w.live) : Ended w id := by
  refine ⟨hknown, fun s hs hid => Decidable.byContradiction fun hnot => ?_⟩
  exact hlive (List.mem_map.mpr ⟨s, List.mem_filter.mpr ⟨hs, by simpa using hnot⟩, hid⟩)

theorem Ended.not_live (h : Ended w id) : id ∉ w.live := by
  intro hlive
  obtain ⟨s, hs, hid⟩ := List.mem_map.mp hlive
  obtain ⟨hs, hnot⟩ := List.mem_filter.mp hs
  exact (by simpa using hnot : ¬s.ExpiredAt w.clock) (h.2 s hs hid)

theorem over_cons : Over (e :: log) id ↔ Over log id ∨
      ∃ s verified inForce, .created s verified inForce ∈ log ∧ s.id = id ∧ e.ends s := by
  constructor
  · rintro ⟨later, e', earlier, s, v, f, heq, hs, hid, hends⟩
    cases later with
    | nil =>
      cases heq
      exact .inr ⟨s, v, f, hs, hid, hends⟩
    | cons _ later =>
      exact .inl ⟨later, e', earlier, s, v, f, (List.cons.inj heq).2, hs, hid, hends⟩
  · rintro (⟨later, e', earlier, s, v, f, rfl, hs, hid, hends⟩ | ⟨s, v, f, hs, hid, hends⟩)
    · exact ⟨e :: later, e', earlier, s, v, f, rfl, hs, hid, hends⟩
    · exact ⟨[], e, log, s, v, f, rfl, hs, hid, hends⟩

/-! ## The invariant -/

/-- What is known of a row that was read: it stays true whatever happens to the table. -/
structure Row (w : World) (s : Session) : Prop where
  created : ∃ s₀ verified inForce, .created s₀ verified inForce ∈ w.log ∧ s₀.id = s.id ∧
    s₀.tokenHash = s.tokenHash ∧ s₀.createdAt = s.createdAt
  absolute : s.absoluteExpiresAt = s.createdAt + absoluteTtl
  idle : s.idleExpiresAt ≤ s.lastSeenAt + idleTtl
  order : s.createdAt ≤ s.lastSeenAt
  past : s.lastSeenAt ≤ w.clock
  seen : s.lastSeenAt = s.createdAt ∨ ∃ j, .admitted j s.id s.lastSeenAt ∈ w.log

theorem Row.mono {s : Session} (h : Row w s) (hclock : w.clock ≤ w'.clock)
    (hlog : ∀ e ∈ w.log, e ∈ w'.log) : Row w' s := by
  obtain ⟨s₀, v, f, hs0, hsame⟩ := h.created
  refine ⟨⟨s₀, v, f, hlog _ hs0, hsame⟩, h.absolute, h.idle, h.order,
    Int.le_trans h.past hclock, ?_⟩
  rcases h.seen with hseen | ⟨j, hj⟩
  · exact .inl hseen
  · exact .inr ⟨j, hlog _ hj⟩

structure Lawful (strict : Prop) (w : World) : Prop where
  rows : ∀ s ∈ w.sessions, Row w s
  live : ∀ s ∈ w.sessions, ¬Over w.log s.id
  unique : ∀ s v f s' v' f', .created s v f ∈ w.log → .created s' v' f' ∈ w.log →
    s.id = s'.id → s = s'
  drawn : ∀ s v f, .created s v f ∈ w.log → s.id ∈ w.drawn
  accepted : ∀ later i id now earlier, w.log = later ++ .accepted i id now :: earlier →
    Admitted strict earlier i id now
  inForce : ∀ s v f, .created s v f ∈ w.log → f = some v

theorem Lawful.ends_row (h : Lawful strict w) {s s₀ : Session} {v : String}
    {f : Option String} (hrow : Row w s) (hs0 : .created s₀ v f ∈ w.log)
    (hid : s₀.id = s.id) (hends : e.ends s₀) : e.ends s := by
  obtain ⟨s1, v1, f1, hs1, hid1, htoken, -⟩ := hrow.created
  obtain rfl := h.unique _ _ _ _ _ _ hs0 hs1 (hid.trans hid1.symm)
  cases e with
  | expired id => exact Eq.trans hends hid
  | loggedOut tokenHash => exact Eq.trans hends htoken
  | revoked | passwordChanged => trivial
  | began | created | admitted | accepted => exact hends

theorem Lawful.same (h : Lawful strict w) (hclock : w.clock ≤ w'.clock)
    (hsessions : w'.sessions = w.sessions) (hdrawn : ∀ id ∈ w.drawn, id ∈ w'.drawn)
    (hlog : w'.log = w.log) : Lawful strict w' := by
  refine ⟨?_, ?_, ?_, ?_, ?_, ?_⟩
  · rw [hsessions]
    exact fun s hs => (h.rows s hs).mono hclock fun e he => hlog ▸ he
  · rw [hsessions, hlog]
    exact h.live
  · rw [hlog]
    exact h.unique
  · rw [hlog]
    exact fun s v f hs => hdrawn _ (h.drawn s v f hs)
  · rw [hlog]
    exact h.accepted
  · rw [hlog]
    exact h.inForce

/-- One more event that creates no session: the rows that are left are rows of before and
have not been ended by it, and if it accepts a request, the request was admitted. -/
theorem Lawful.note (h : Lawful strict w) (hlog : w'.log = e :: w.log)
    (hclock : w'.clock = w.clock) (hdrawn : w'.drawn = w.drawn)
    (hrows : ∀ s ∈ w'.sessions, s ∈ w.sessions ∧ ¬e.ends s) (hcreated : ∀ s v f, e ≠ .created s v f)
    (haccepted : ∀ i id now, e = .accepted i id now → Admitted strict w.log i id now) :
    Lawful strict w' := by
  have hold : ∀ s v f, .created s v f ∈ w'.log → .created s v f ∈ w.log := by
    intro s v f hs
    rw [hlog] at hs
    rcases mem_cons.mp hs with heq | hs
    · exact absurd heq.symm (hcreated s v f)
    · exact hs
  refine ⟨?_, ?_, ?_, ?_, ?_, ?_⟩
  · intro s hs
    refine (h.rows s (hrows s hs).1).mono (Int.le_of_eq hclock.symm) fun e he => ?_
    rw [hlog]
    exact mem_cons_of_mem _ he
  · intro s hs hover
    obtain ⟨hs, hends⟩ := hrows s hs
    rw [hlog, over_cons] at hover
    rcases hover with hover | ⟨s₀, v, f, hs0, hid, hends0⟩
    · exact h.live s hs hover
    · exact hends (h.ends_row (h.rows s hs) hs0 hid hends0)
  · exact fun s v f s' v' f' hs hs' => h.unique _ _ _ _ _ _ (hold _ _ _ hs) (hold _ _ _ hs')
  · rw [hdrawn]
    exact fun s v f hs => h.drawn s v f (hold _ _ _ hs)
  · intro later i id now earlier heq
    rw [hlog] at heq
    cases later with
    | nil =>
      obtain ⟨he, hrest⟩ := List.cons.inj heq
      exact hrest ▸ haccepted i id now he
    | cons _ later => exact h.accepted later i id now earlier (List.cons.inj heq).2
  · exact fun s v f hs => h.inForce s v f (hold _ _ _ hs)

/-- A login inserts a session under an id that no session had before, with the password that
is in force. -/
theorem Lawful.insert (h : Lawful strict w) {s : Session} {verified : String}
    (hpassword : w.passwordHash = some verified)
    (hfresh : ∀ s' v f, .created s' v f ∈ w.log → s'.id ≠ s.id) (hdrawn : s.id ∈ w.drawn)
    (habsolute : s.absoluteExpiresAt = s.createdAt + absoluteTtl)
    (hidle : s.idleExpiresAt ≤ s.lastSeenAt + idleTtl) (hseen : s.lastSeenAt = s.createdAt)
    (hpast : s.lastSeenAt ≤ w.clock) : Lawful strict (w.insertSession s verified) := by
  have hnew : ∀ s' v f, .created s' v f ∈ (w.insertSession s verified).log →
      (s' = s ∧ f = some v) ∨ .created s' v f ∈ w.log := by
    intro s' v f hs'
    rcases mem_cons.mp hs' with heq | hs'
    · obtain ⟨rfl, rfl, rfl⟩ := Event.created.inj heq
      exact .inl ⟨rfl, hpassword⟩
    · exact .inr hs'
  refine ⟨?_, ?_, ?_, ?_, ?_, ?_⟩
  · intro s' hs'
    rcases mem_cons.mp hs' with rfl | hs'
    · exact ⟨⟨s', verified, _, mem_cons_self, rfl, rfl, rfl⟩, habsolute, hidle,
        Int.le_of_eq hseen.symm, hpast, .inl hseen⟩
    · exact (h.rows s' hs').mono (Int.le_refl _) fun e he => mem_cons_of_mem _ he
  · intro s' hs' hover
    rcases over_cons.mp hover with hbefore | ⟨s₀, v, f, _, _, hends⟩
    · rcases mem_cons.mp hs' with rfl | hs'
      · -- an ended session was created before, under another id
        obtain ⟨later, e, earlier, s₀, v, f, heq, hs0, hid, _⟩ := hbefore
        refine hfresh s₀ v f ?_ hid
        rw [heq]
        exact List.mem_append_right _ (mem_cons_of_mem _ hs0)
      · exact h.live s' hs' hbefore
    · exact hends
  · intro s1 v f s2 v' f' h1 h2 hid
    rcases hnew _ _ _ h1 with ⟨rfl, -⟩ | hold1
    · rcases hnew _ _ _ h2 with ⟨rfl, -⟩ | hold2
      · rfl
      · exact absurd hid.symm (hfresh _ _ _ hold2)
    · rcases hnew _ _ _ h2 with ⟨rfl, -⟩ | hold2
      · exact absurd hid (hfresh _ _ _ hold1)
      · exact h.unique _ _ _ _ _ _ hold1 hold2 hid
  · intro s' v f hs'
    rcases hnew _ _ _ hs' with ⟨rfl, -⟩ | hs'
    · exact hdrawn
    · exact h.drawn s' v f hs'
  · intro later i id now earlier heq
    cases later with
    | nil => cases (List.cons.inj heq).1
    | cons _ later => exact h.accepted later i id now earlier (List.cons.inj heq).2
  · intro s' v f hs'
    rcases hnew _ _ _ hs' with ⟨-, hf⟩ | hs'
    · exact hf
    · exact h.inForce s' v f hs'

theorem Lawful.refresh (h : Lawful strict w) {i : Nat} {row : Session} {now : Int}
    (hrow : Row w row) (hadmitted : .admitted i row.id now ∈ w.log) (hseen : row.lastSeenAt ≤ now)
    (hpast : now ≤ w.clock) : Lawful strict { w with sessions := w.sessions.map fun s =>
      if s.id = row.id then
        { s with lastSeenAt := now, idleExpiresAt := idleExpiry now row.absoluteExpiresAt }
      else s } := by
  refine ⟨?_, ?_, h.unique, h.drawn, h.accepted, h.inForce⟩
  · intro s' hs'
    obtain ⟨s, hs, rfl⟩ := List.mem_map.mp hs'
    have hold := h.rows s hs
    by_cases hid : s.id = row.id
    · rw [if_pos hid]
      obtain ⟨s₀, v, f, hs0, hid0, htoken, hcreated⟩ := hold.created
      obtain ⟨s1, v1, f1, hs1, hid1, -, hcreated1⟩ := hrow.created
      obtain rfl := h.unique _ _ _ _ _ _ hs0 hs1 ((hid0.trans hid).trans hid1.symm)
      refine ⟨⟨s₀, v, f, hs0, hid0, htoken, hcreated⟩, hold.absolute, Int.min_le_left _ _, ?_,
        hpast, .inr ⟨i, ?_⟩⟩
      · show s.createdAt ≤ now
        rw [← hcreated, hcreated1]
        exact Int.le_trans hrow.order hseen
      · show .admitted i s.id now ∈ w.log
        rw [hid]
        exact hadmitted
    · rw [if_neg hid]
      exact hold.mono (Int.le_refl _) fun e he => he
  · intro s' hs'
    obtain ⟨s, hs, rfl⟩ := List.mem_map.mp hs'
    have hlive := h.live s hs
    by_cases hid : s.id = row.id
    · rw [if_pos hid]
      exact hlive
    · rw [if_neg hid]
      exact hlive

/-! ## What the threads leave to each other -/

/-- The events are of thread `j` or of no request, and no session that has ended is alive to a
request that begins with them. -/
structure Adds (strict : Prop) (j : Nat) (w : World) (new : List Event) : Prop where
  own : ∀ i live, .began i live ∈ new → i = j
  live : strict → ∀ id, Ended w id → ∀ i live, .began i live ∈ new → id ∉ live

/-- The steps of thread `j`: the account only grows, no other request begins, and while
another thread holds the guard the password stays and no session is created. If `strict`, a
session that has ended stays so. -/
structure Follows (strict : Prop) (j : Nat) (w w' : World) : Prop where
  clock : w.clock ≤ w'.clock
  drawn : ∀ id ∈ w.drawn, id ∈ w'.drawn
  log : ∃ new, w'.log = new ++ w.log ∧ Adds strict j w new
  ended : strict → ∀ id, Ended w id → Ended w' id
  guarded : ∀ i, j ≠ i → w.guard = some i → w'.guard = some i ∧
    w'.passwordHash = w.passwordHash ∧
    ∀ s v f, .created s v f ∈ w'.log → .created s v f ∈ w.log

theorem Follows.mem (h : Follows strict j w w') (he : e ∈ w.log) : e ∈ w'.log := by
  obtain ⟨new, hlog, -⟩ := h.log
  rw [hlog]
  exact List.mem_append_right _ he

theorem adds_one (hbegan : ∀ i live, e ≠ .began i live) : Adds strict j w [e] where
  own := fun i live hmem => absurd (List.mem_singleton.mp hmem).symm (hbegan i live)
  live := fun _ _ _ i live hmem => absurd (List.mem_singleton.mp hmem).symm (hbegan i live)

theorem follows_same (hclock : w.clock ≤ w'.clock)
    (hdrawn : ∀ id ∈ w.drawn, id ∈ w'.drawn) (hlog : w'.log = w.log)
    (hrows : strict → ∀ id, Ended w id → ∀ s ∈ w'.sessions, s.id = id → s ∈ w.sessions)
    (hguard : ∀ i, j ≠ i → w.guard = some i →
      w'.guard = some i ∧ w'.passwordHash = w.passwordHash) : Follows strict j w w' where
  clock := hclock
  drawn := hdrawn
  log := ⟨[], hlog, fun _ _ => (absurd · not_mem_nil), fun _ _ _ _ _ => (absurd · not_mem_nil)⟩
  ended := fun ht id h => h.mono hclock (fun _ he => hlog ▸ he) (hrows ht id h)
  guarded := by
    intro i hi hi'
    obtain ⟨hg, hp⟩ := hguard i hi hi'
    exact ⟨hg, hp, fun s v f hs => hlog ▸ hs⟩

/-- Nothing happens. -/
theorem follows_refl (strict : Prop) (j : Nat) (w : World) : Follows strict j w w :=
  follows_same (Int.le_refl _) (fun _ h => h) rfl (fun _ _ _ _ hs _ => hs) fun _ _ h => ⟨h, rfl⟩

/-- A step of one event that creates no session, made with or without the guard. -/
theorem follows_note (hclock : w'.clock = w.clock)
    (hdrawn : w'.drawn = w.drawn) (hlog : w'.log = e :: w.log)
    (hrows : ∀ s ∈ w'.sessions, s ∈ w.sessions)
    (hguard : ∀ i, j ≠ i → w.guard = some i → w'.guard = some i ∧ w'.passwordHash = w.passwordHash)
    (hcreated : ∀ s v f, e ≠ .created s v f) (hadds : Adds strict j w [e]) :
    Follows strict j w w' where
  clock := Int.le_of_eq hclock.symm
  drawn := fun id hid => hdrawn ▸ hid
  log := ⟨[e], hlog, hadds⟩
  ended := fun _ _ h => h.mono (Int.le_of_eq hclock.symm)
    (fun _ he => hlog ▸ mem_cons_of_mem _ he) fun s hs _ => hrows s hs
  guarded := by
    intro i hi hi'
    obtain ⟨hg, hp⟩ := hguard i hi hi'
    refine ⟨hg, hp, fun s v f hs => ?_⟩
    rw [hlog] at hs
    rcases mem_cons.mp hs with heq | hs
    · exact absurd heq.symm (hcreated s v f)
    · exact hs

theorem Lawful.delete {rows : List Session} {outcome : Outcome} {r : Except AuthError Unit}
    (h : Lawful strict w)
    (hact : w.write outcome { w with sessions := rows, log := e :: w.log } = (r, w'))
    (hrows : ∀ s ∈ rows, s ∈ w.sessions ∧ ¬e.ends s) (hcreated : ∀ s v f, e ≠ .created s v f)
    (haccepted : ∀ i id now, e ≠ .accepted i id now) (hbegan : ∀ i live, e ≠ .began i live) :
    Lawful strict w' ∧ Follows strict j w w' ∧ True := by
  rcases World.write_eq hact with rfl | rfl
  · exact ⟨h, follows_refl _ _ _, trivial⟩
  · exact ⟨h.note rfl rfl rfl hrows hcreated fun i id now he => absurd he (haccepted i id now),
      follows_note rfl rfl rfl (fun s hs => (hrows s hs).1) (fun _ _ h => ⟨h, rfl⟩) hcreated
        (adds_one hbegan), trivial⟩

/-- A step of one event made under the guard. -/
theorem follows_guarded (hguard : w.guard = some j)
    (hclock : w'.clock = w.clock) (hdrawn : w'.drawn = w.drawn)
    (hlog : w'.log = e :: w.log)
    (hrows : ∀ s ∈ w'.sessions, Known w.log s.id → s ∈ w.sessions)
    (hbegan : ∀ i live, e ≠ .began i live) : Follows strict j w w' where
  clock := Int.le_of_eq hclock.symm
  drawn := fun _ hid => hdrawn ▸ hid
  log := ⟨[e], hlog, adds_one hbegan⟩
  ended := fun _ _ h => h.mono (Int.le_of_eq hclock.symm)
    (fun _ he => hlog ▸ mem_cons_of_mem _ he) fun s hs hid => hrows s hs (hid ▸ h.1)
  guarded := fun _ hi hi' => absurd (Option.some.inj (hguard.symm.trans hi')) hi

theorem Lawful.leave (h : Lawful strict w) (i : Nat) :
    Lawful strict (w.leave i) ∧ Follows strict i w (w.leave i) := by
  unfold World.leave
  split
  next hguard =>
    refine ⟨h.same (Int.le_refl _) rfl (fun _ h => h) rfl,
      follows_same (Int.le_refl _) (fun _ h => h) rfl (fun _ _ _ _ hs _ => hs) fun j hj hj' => ?_⟩
    exact absurd (Option.some.inj (hguard.symm.trans hj')) hj
  · exact ⟨h, follows_refl _ _ _⟩

/-- The calls that leave sessions, password and account as they are. -/
def Still : Call → Prop
  | .now => True
  | .blockedUntil => True
  | .auditCooldown => True
  | .passwordHash => True
  | .verify _ _ _ => True
  | .recordCredentialFailure _ => True
  | .generateToken => True
  | .hash _ => True
  | .selectSession _ => True
  | _ => False

theorem still_act {e : Call} {c : Pick e} {r : Answer e}
    (he : Still e) (h : w.act i e c = some (r, w')) :
    w.clock ≤ w'.clock ∧ w'.sessions = w.sessions ∧ w'.drawn = w.drawn ∧ w'.log = w.log ∧
      w'.guard = w.guard ∧ w'.passwordHash = w.passwordHash := by
  cases e with
  | now =>
    cases h
    exact ⟨Int.le_add_of_nonneg_right (Int.natCast_nonneg _), rfl, rfl, rfl, rfl, rfl⟩
  | verify | generateToken =>
    cases c <;> cases h <;>
      exact ⟨Int.le_refl _, rfl, rfl, rfl, rfl, rfl⟩
  | recordCredentialFailure now =>
    rcases World.write_eq (Option.some.inj h) with rfl | rfl <;>
      exact ⟨Int.le_refl _, rfl, rfl, rfl, rfl, rfl⟩
  | blockedUntil | auditCooldown | passwordHash | hash | selectSession =>
    cases h
    exact ⟨Int.le_refl _, rfl, rfl, rfl, rfl, rfl⟩
  | _ => exact he.elim

theorem Lawful.still {e : Call} {c : Pick e} {r : Answer e}
    (h : Lawful strict w) (he : Still e) (hact : w.act i e c = some (r, w')) :
    Lawful strict w' ∧ Follows strict i w w' := by
  obtain ⟨hclock, hsessions, hdrawn, hlog, hguard, hpassword⟩ := still_act he hact
  have hdrawn' : ∀ id ∈ w.drawn, id ∈ w'.drawn := fun id hid => hdrawn ▸ hid
  exact ⟨h.same hclock hsessions hdrawn' hlog,
    follows_same hclock hdrawn' hlog (fun _ _ _ s hs _ => hsessions ▸ hs)
      fun j _ hj => ⟨hguard.trans hj, hpassword⟩⟩

/-! ## The requests of a session -/

section Programs

variable {i : Nat} {now : Int}

/-- Request `i` has begun; a session that had been created then and was not alive has ended. -/
def Begun (strict : Prop) (i : Nat) (w : World) : Prop :=
  ∃ mid live before, w.log = mid ++ .began i live :: before ∧ (∀ live, .began i live ∉ mid) ∧
    (strict → ∀ id, Known before id → id ∈ live ∨ Ended w id)

/-- The row was alive when request `i` began, or it had expired at `t`. -/
def Since (strict : Prop) (i : Nat) (row : Session) (t : Int) (w : World) : Prop :=
  ∃ mid live before, w.log = mid ++ .began i live :: before ∧ (∀ live, .began i live ∉ mid) ∧
    (strict → Known before row.id → row.id ∈ live ∨ row.ExpiredAt t)

/-- Request `i` has read the row. -/
def HasRead (strict : Prop) (i : Nat) (row : Session) (w : World) : Prop :=
  Row w row ∧ Since strict i row w.clock w

/-- Request `i` has read the row, and then the clock. -/
def HasTimed (strict : Prop) (i : Nat) (row : Session) (now : Int) (w : World) : Prop :=
  Row w row ∧ Since strict i row now w ∧ row.lastSeenAt ≤ now ∧ now ≤ w.clock

/-- Another thread's events do not begin request `i`. -/
theorem Follows.not_began (h : Follows strict j w w') (hj : j ≠ i) {mid rest : List Event}
    (hlog : w.log = mid ++ rest) (hmid : ∀ live, .began i live ∉ mid) :
    ∃ mid', w'.log = mid' ++ rest ∧ ∀ live, .began i live ∉ mid' := by
  obtain ⟨new, hnew, hadds⟩ := h.log
  refine ⟨new ++ mid, ?_, fun live hmem => ?_⟩
  · rw [hnew, hlog, List.append_assoc]
  · rcases List.mem_append.mp hmem with hmem | hmem
    · exact hj (hadds.own i live hmem).symm
    · exact hmid live hmem

theorem stable_begun (i : Nat) :
    Stable (Lawful strict) (Follows strict) i (Begun strict i) := by
  intro j w w' hj _ hA hG
  obtain ⟨mid, live, before, hlog, hmid, hended⟩ := hA
  obtain ⟨mid', hlog', hmid'⟩ := hG.not_began hj hlog hmid
  exact ⟨mid', live, before, hlog', hmid',
    fun ht id hid => (hended ht id hid).imp_right (hG.ended ht id)⟩

theorem Since.follows {row : Session} {t t' : Int} (h : Since strict i row t w)
    (hG : Follows strict j w w') (hj : j ≠ i) (ht : t ≤ t') : Since strict i row t' w' := by
  obtain ⟨mid, live, before, hlog, hmid, hlive⟩ := h
  obtain ⟨mid', hlog', hmid'⟩ := hG.not_began hj hlog hmid
  exact ⟨mid', live, before, hlog', hmid',
    fun hs hid => (hlive hs hid).imp_right (·.mono ht)⟩

theorem stable_hasRead (i : Nat) (row : Session) :
    Stable (Lawful strict) (Follows strict) i (HasRead strict i row) :=
  fun _ _ _ hj _ hA hG =>
    ⟨hA.1.mono hG.clock fun _ he => hG.mem he, hA.2.follows hG hj hG.clock⟩

theorem stable_hasTimed (i : Nat) (row : Session) (now : Int) :
    Stable (Lawful strict) (Follows strict) i (HasTimed strict i row now) :=
  fun _ _ _ hj _ hA hG =>
    ⟨hA.1.mono hG.clock fun _ he => hG.mem he, hA.2.1.follows hG hj (Int.le_refl _), hA.2.2.1,
      Int.le_trans hA.2.2.2 hG.clock⟩

theorem stable_admitted (i : Nat) (id : Uuid) (now : Int) :
    Stable (Lawful strict) (Follows strict) i fun w => Admitted strict w.log i id now := by
  intro j w w' hj _ hA hG
  obtain ⟨mid, before, hlog, hmid, halive⟩ := hA
  obtain ⟨mid', hlog', hmid'⟩ := hG.not_began hj hlog hmid
  exact ⟨mid', before, hlog', hmid', halive⟩

variable {row : Session} {hash : Option String} {id : Option Uuid} {α : Type}

theorem latest_began {mid later before before' : List Event} {live live' : List Uuid}
    (h : mid ++ .began i live :: before = later ++ .began i live' :: before')
    (hmid : ∀ live, .began i live ∉ mid) (hlater : ∀ live, .began i live ∉ later) :
    live = live' ∧ before = before' := by
  induction mid generalizing later with
  | nil =>
    cases later with
    | nil =>
      obtain ⟨he, hrest⟩ := List.cons.inj h
      exact ⟨(Event.began.inj he).2, hrest⟩
    | cons e later =>
      obtain ⟨rfl, -⟩ := List.cons.inj h
      exact absurd mem_cons_self (hlater live)
  | cons e mid ih =>
    cases later with
    | nil =>
      obtain ⟨rfl, -⟩ := List.cons.inj h
      exact absurd mem_cons_self (hmid live')
    | cons e' later =>
      exact ih (List.cons.inj h).2 (fun live hmem => hmid live (mem_cons_of_mem _ hmem))
        fun live hmem => hlater live (mem_cons_of_mem _ hmem)

theorem Row.recent (hrow : Row w row) (hseen : row.lastSeenAt ≤ now) (halive : ¬row.ExpiredAt now) :
    Recent w.log row.id now := by
  have hidle : now < row.idleExpiresAt := Int.not_le.mp fun h => halive (.inl h)
  have habsolute : now < row.absoluteExpiresAt := Int.not_le.mp fun h => halive (.inr h)
  obtain ⟨s, v, f, hs, hid, -, hcreated⟩ := hrow.created
  refine ⟨s, v, f, hs, hid, ?_, ?_, ?_⟩
  · rw [hcreated]
    exact Int.le_trans hrow.order hseen
  · rw [hcreated, ← hrow.absolute]
    exact habsolute
  · have hlast : now < row.lastSeenAt + idleTtl := Int.lt_of_lt_of_le hidle hrow.idle
    rcases hrow.seen with heq | ⟨j, hj⟩
    · rw [hcreated, ← heq]
      exact .inl hlast
    · exact .inr ⟨j, row.lastSeenAt, hj, hseen, hlast⟩

theorem Since.liveAtStart (h : Since strict i row now w) (halive : ¬row.ExpiredAt now)
    (ht : strict) : LiveAtStart w.log i row.id := by
  intro later live before heq hlater hknown
  obtain ⟨mid, live', before', hlog, hmid, hlive⟩ := h
  obtain ⟨rfl, rfl⟩ := latest_began (hlog.symm.trans heq) hmid hlater
  exact (hlive ht hknown).resolve_right halive

/-- A program of thread `i` that keeps the sessions lawful, whatever the others do. -/
abbrev Obeys {ε : Type} (strict : Prop) (i : Nat) (p : Prog Call Answer ε α)
    (A : World → Prop) : Prop :=
  interface.Valid (Timely strict) (Lawful strict) (Follows strict) i p A fun _ _ => True

theorem refresh_lawful :
    interface.Valid (Timely strict) (Lawful strict) (Follows strict) i (refresh row now)
      (fun w => HasTimed strict i row now w ∧ Admitted strict w.log i row.id now)
      fun _ w => Admitted strict w.log i row.id now := by
  refine valid_ite (fun _ => ?_) fun _ _ _ hA => hA.2
  refine valid_call (fun _ w => Admitted strict w.log i row.id now)
    (fun _ => stable_admitted i row.id now) ?_ fun r => ?_
  · intro w c r w' hI hA hC hact
    obtain ⟨⟨hrow, -, hseen, hclock⟩, hadmitted⟩ := hA
    rcases World.write_applied (Option.some.inj hact) with rfl | ⟨rfl, happlied⟩
    · exact ⟨hI, follows_refl _ _ _, hadmitted⟩
    · have hmem : .admitted i row.id now ∈ w.log := by
        obtain ⟨mid, before, hlog, -⟩ := hadmitted
        rw [hlog]
        exact List.mem_append_right _ mem_cons_self
      refine ⟨hI.refresh hrow hmem hseen hclock,
        follows_same (Int.le_refl _) (fun _ h => h) rfl ?_ fun _ _ h => ⟨h, rfl⟩, hadmitted⟩
      -- the row that is written had not expired, so its session had not ended
      intro ht id hended s' hs' hid
      obtain ⟨s, hs, rfl⟩ := List.mem_map.mp hs'
      by_cases heq : s.id = row.id
      · rw [if_pos heq] at hid
        exact absurd (hended.2 s hs hid) (hC ht happlied s hs heq)
      · rw [if_neg heq]
        exact hs
  · cases r <;> exact fun _ _ hA => hA

/-- One event of request `i` itself, which begins nothing and accepts nothing unduly. -/
theorem Lawful.mark (h : Lawful strict w) (hcreated : ∀ s v f, e ≠ .created s v f)
    (hbegan : ∀ i live, e ≠ .began i live) (hends : ∀ s, ¬e.ends s)
    (haccepted : ∀ i id now, e = .accepted i id now → Admitted strict w.log i id now) :
    Lawful strict { w with log := e :: w.log } ∧
      Follows strict i w { w with log := e :: w.log } :=
  ⟨h.note rfl rfl rfl (fun s hs => ⟨hs, hends s⟩) hcreated haccepted,
    follows_note rfl rfl rfl (fun _ hs => hs) (fun _ _ h => ⟨h, rfl⟩) hcreated (adds_one hbegan)⟩

theorem Since.mark {t : Int} (h : Since strict i row t w) (hbegan : ∀ i live, e ≠ .began i live) :
    Since strict i row t { w with log := e :: w.log } := by
  obtain ⟨mid, live, before, hlog, hmid, hlive⟩ := h
  refine ⟨e :: mid, live, before, ?_, fun live hmem => ?_, hlive⟩
  · rw [List.cons_append, ← hlog]
  · rcases mem_cons.mp hmem with heq | hmem
    · exact hbegan i live heq.symm
    · exact hmid live hmem

theorem enter_lawful : Obeys strict i (enter row) (HasRead strict i row) := by
  refine valid_call (fun now => HasTimed strict i row now)
    (fun now => stable_hasTimed i row now) ?_ fun now => valid_ite (fun _ => ?_) fun halive => ?_
  · intro w c r w' hI hA _ hact
    obtain ⟨hI', hG⟩ := hI.still (e := .now) (i := i) trivial hact
    cases hact
    obtain ⟨mid, live, before, hlog, hmid, hlive⟩ := hA.2
    exact ⟨hI', hG, hA.1.mono hG.clock fun e he => hG.mem he,
      ⟨mid, live, before, hlog, hmid, fun ht hid => (hlive ht hid).imp_right (·.mono hG.clock)⟩,
      Int.le_trans hA.1.past hG.clock, Int.le_refl _⟩
  · -- the row is deleted
    refine valid_call (fun _ _ => True) (fun _ => stable_true) ?_ fun r => ?_
    · intro w c r w' hI _ _ hact
      refine hI.delete (Option.some.inj hact) (fun s hs => ?_) nofun nofun nofun
      obtain ⟨hs, hne⟩ := List.mem_filter.mp hs
      exact ⟨hs, fun hends => (by simpa using hne : s.id ≠ row.id) hends.symm⟩
    · cases r <;> exact fun _ _ _ => trivial
  · refine valid_call
      (fun _ w => HasTimed strict i row now w ∧ Admitted strict w.log i row.id now)
      (fun _ => (stable_hasTimed i row now).and (stable_admitted i row.id now)) ?_ fun _ => ?_
    · intro w c r w' hI hA _ hact
      cases hact
      obtain ⟨hrow, hsince, hseen, hclock⟩ := hA
      obtain ⟨hI', hG⟩ := hI.mark (e := .admitted i row.id now) (i := i) nofun nofun nofun nofun
      exact ⟨hI', hG, ⟨hrow.mono hG.clock fun e he => hG.mem he, hsince.mark nofun, hseen, hclock⟩,
        [], w.log, rfl, fun _ => not_mem_nil, hrow.recent hseen halive, hsince.liveAtStart halive⟩
    · refine valid_bind refresh_lawful (fun _ => ?_) fun _ _ _ _ => trivial
      refine valid_call (fun _ _ => True) (fun _ => stable_true) ?_ fun _ _ _ _ => trivial
      intro w c r w' hI hA _ hact
      cases hact
      obtain ⟨hI', hG⟩ := hI.mark (e := .accepted i row.id now) (i := i) nofun nofun nofun (by
        intro j id t heq
        obtain ⟨rfl, rfl, rfl⟩ := Event.accepted.inj heq
        exact hA)
      exact ⟨hI', hG, trivial⟩

theorem authenticate_lawful (sha256 : String → Bytes) (token : String) :
    Obeys strict i (authenticate sha256 token) fun _ => True := by
  refine valid_call (fun _ => Begun strict i) (fun _ => stable_begun i) ?_ fun r => ?_
  · intro w c r w' hI _ _ hact
    cases hact
    refine ⟨hI.note rfl rfl rfl (fun s hs => ⟨hs, nofun⟩) nofun nofun, ?_,
      [], w.live, w.log, rfl, fun _ => not_mem_nil, fun _ id hknown => ?_⟩
    · refine follows_note rfl rfl rfl (fun _ hs => hs) (fun _ _ h => ⟨h, rfl⟩) nofun ⟨?_, ?_⟩
      · intro j live hmem
        exact (Event.began.inj (List.mem_singleton.mp hmem)).1
      · intro _ id hended j live hmem
        rw [(Event.began.inj (List.mem_singleton.mp hmem)).2]
        exact hended.not_live
    · by_cases hlive : id ∈ w.live
      · exact .inl hlive
      · exact .inr ((ended_of_not_live hknown hlive).mono (Int.le_refl _)
          (fun _ he => mem_cons_of_mem _ he) fun _ hs _ => hs)
  refine valid_orElse_bind (fun initialized _ => ?_) fun _ _ _ _ _ => trivial
  refine valid_ensure_bind (fun _ => ?_) fun _ _ _ _ => trivial
  refine valid_call (fun r w => ∀ row, r = .ok (some row) → HasRead strict i row w) ?_ ?_
    fun r => ?_
  · exact fun r j w w' hj hI hA hG row hr => stable_hasRead i row j w w' hj hI (hA row hr) hG
  · intro w c r w' hI hA _ hact
    obtain ⟨hI', hG⟩ := hI.still (e := .selectSession _) (i := i) trivial hact
    cases hact
    refine ⟨hI', hG, fun row hr => ?_⟩
    have hfound : w.sessions.find? (·.tokenHash = sha256 token) = some row := by
      unfold World.read at hr
      split at hr
      · exact Except.ok.inj hr
      · cases hr
    have hrow := List.mem_of_find?_eq_some hfound
    obtain ⟨mid, live, before, hlog, hmid, hended⟩ := hA
    exact ⟨hI.rows row hrow, mid, live, before, hlog, hmid,
      fun ht hid => (hended ht row.id hid).imp_right fun h => h.2 row hrow rfl⟩
  · refine valid_orElse_bind (fun row hr => ?_) fun _ _ _ _ _ => trivial
    refine valid_orStop_bind (fun row' hrow => ?_) fun _ _ _ _ => trivial
    exact valid_conseq enter_lawful (fun w _ hA => hA row' (by rw [hr, hrow])) fun _ _ _ h => h

/-! ## The attempts at the password -/

/-- Thread `i` holds the guard since before `now`; the hash that it read is the password's,
and the id that it drew is no session's. -/
structure Holds (i : Nat) (now : Int) (hash : Option String) (id : Option Uuid) (w : World) :
    Prop where
  guard : w.guard = some i
  clock : now ≤ w.clock
  password : ∀ h, hash = some h → w.passwordHash = some h
  fresh : ∀ x, id = some x → x ∈ w.drawn ∧ ∀ s v f, .created s v f ∈ w.log → s.id ≠ x

theorem stable_holds (i : Nat) (now : Int) (hash : Option String) (id : Option Uuid) :
    Stable (Lawful strict) (Follows strict) i (Holds i now hash id) := by
  intro j w w' hj _ hA hG
  obtain ⟨hguard, hpassword, hcreated⟩ := hG.guarded i hj hA.guard
  refine ⟨hguard, Int.le_trans hA.clock hG.clock, fun h hh => ?_, fun x hx => ?_⟩
  · rw [hpassword]
    exact hA.password h hh
  · obtain ⟨hdrawn, hfresh⟩ := hA.fresh x hx
    exact ⟨hG.drawn x hdrawn, fun s v f hs => hfresh s v f (hcreated s v f hs)⟩

theorem Holds.still {e : Call} {c : Pick e} {r : Answer e} (h : Holds i now hash id w)
    (he : Still e)
    (hact : w.act i e c = some (r, w')) : Holds i now hash id w' := by
  obtain ⟨hclock, -, hdrawn, hlog, hguard, hpassword⟩ := still_act he hact
  refine ⟨hguard.trans h.guard, Int.le_trans h.clock hclock, fun x hx => ?_, fun x hx => ?_⟩
  · rw [hpassword]
    exact h.password x hx
  · rw [hdrawn, hlog]
    exact h.fresh x hx

variable {p : Handler α} {sha256 : String → Bytes}

theorem holds_of_still (hp : p.Only Still) :
    interface.Valid (Timely strict) (Lawful strict) (Follows strict) i p (Holds i now hash id)
      fun _ => Holds i now hash id :=
  valid_of_only hp (stable_holds i now hash id) fun _ _ _ _ _ he hI hA _ hact =>
    have hstill := hI.still he hact
    ⟨hstill.1, hstill.2, hA.still he hact⟩

theorem holds_bind {k : α → Handler β} (hp : p.Only Still)
    (hk : ∀ a, Obeys strict i (k a) (Holds i now hash id)) :
      Obeys strict i (p >>= k) (Holds i now hash id) :=
  valid_bind (holds_of_still hp) hk fun _ _ _ _ => trivial

theorem withCredentialGuard_lawful {body : Handler α}
    (hbody : Obeys strict i body (fun w => w.guard = some i)) :
    Obeys strict i (withCredentialGuard body) fun _ => True := by
  refine valid_call (fun _ w => w.guard = some i) ?_ ?_ fun _ => ?_
  · exact fun _ j w w' hj _ hA hG => (hG.guarded i hj hA).1
  · intro w c r w' hI _ _ hact
    obtain ⟨hfree, rfl⟩ := World.lock_eq hact
    refine ⟨hI.same (Int.le_refl _) rfl (fun _ h => h) rfl,
      follows_same (Int.le_refl _) (fun _ h => h) rfl (fun _ _ _ _ hs _ => hs)
        fun j _ hj => ?_, rfl⟩
    rw [hfree] at hj
    cases hj
  · refine valid_bind (valid_attempt (Q := fun _ _ => True) hbody) (fun result => ?_)
      fun _ _ _ _ => trivial
    refine valid_call (fun _ _ => True) (fun _ => stable_true) ?_ fun _ => ?_
    · intro w c r w' hI _ _ hact
      cases hact
      have hleft := hI.leave i
      exact ⟨hleft.1, hleft.2, trivial⟩
    · cases result <;> exact fun _ _ _ => trivial

theorem ensureNotThrottled_still (now : Instant) : (ensureNotThrottled now).Only Still := by
  refine only_bind (by simp [Still]) fun _ => only_bind (by simp [Prog.accept]) fun b => ?_
  cases b with
  | none => trivial
  | some b =>
    dsimp only
    split
    · exact only_bind (by simp [Still]) fun _ => only_bind (by simp [Prog.accept]) fun _ => trivial
    · trivial

theorem verify_still {now : Instant} {password encodedHash : String} :
    (verify now password encodedHash).Only Still :=
  only_bind (by simp [Still]) fun _ => by simp

theorem reject_still (now : Instant) (error : AuthError) :
    (reject now error : Handler α).Only Still :=
  only_bind (by simp [Still]) fun _ => only_bind (by simp [Prog.accept]) fun _ => trivial

theorem reject_lawful {error : AuthError} : Obeys strict i (reject now error : Handler α)
    (Holds i now hash id) :=
  valid_conseq (holds_of_still (reject_still now error)) (fun _ _ h => h) fun _ _ _ _ => trivial

theorem openSession_lawful {passwordHash : String} :
    Obeys strict i (openSession sha256 now passwordHash)
    (Holds i now (some passwordHash) none) := by
  refine holds_bind (by simp [Still]) fun _ => holds_bind (by simp [Prog.accept]) fun token => ?_
  refine holds_bind (by simp [Still]) fun _ => holds_bind (by simp [Prog.accept]) fun csrf => ?_
  refine valid_call (fun id => Holds i now (some passwordHash) (some id))
    (fun id => stable_holds i now _ _) ?_ fun id => ?_
  · intro w c r w' hI hA _ hact
    obtain ⟨hfresh, rfl⟩ := World.draw_eq hact
    refine ⟨hI.same (Int.le_refl _) rfl (fun _ h => mem_cons_of_mem _ h) rfl,
      follows_same (Int.le_refl _) (fun _ h => mem_cons_of_mem _ h) rfl
        (fun _ _ _ _ hs _ => hs) fun _ _ h => ⟨h, rfl⟩, hA.guard, hA.clock, hA.password, ?_⟩
    rintro _ ⟨rfl⟩
    exact ⟨mem_cons_self, fun s v f hs he => hfresh (he ▸ hI.drawn s v f hs)⟩
  · refine valid_call (fun _ _ => True) (fun _ => stable_true) ?_ fun r => ?_
    · intro w c r w' hI hA _ hact
      rcases World.tryInsert_eq (Option.some.inj hact) with rfl | ⟨rfl, -⟩
      · exact ⟨hI, follows_refl _ _ _, trivial⟩
      · obtain ⟨hdrawn, hfresh⟩ := hA.fresh id rfl
        refine ⟨hI.insert (hA.password _ rfl) hfresh hdrawn rfl (Int.min_le_left _ _) rfl hA.clock,
          follows_guarded hA.guard rfl rfl rfl (fun s hs hknown => ?_)
            (fun _ _ h => by cases h), trivial⟩
        -- the id of the new row is that of no session
        rcases mem_cons.mp hs with rfl | hs
        · obtain ⟨s₀, v, f, hs0, hid⟩ := hknown
          exact absurd hid (hfresh s₀ v f hs0)
        · exact hs
    · cases r <;> exact fun _ _ _ => trivial

theorem replacePassword_lawful {newPassword : String} : Obeys strict i (replacePassword newPassword)
    (Holds i now hash none) := by
  refine holds_bind (by simp [Still]) fun _ => holds_bind (by simp) fun newHash => ?_
  refine valid_call (fun _ _ => True) (fun _ => stable_true) ?_ fun r => ?_
  · intro w c r w' hI hA _ hact
    rcases World.write_eq (Option.some.inj hact) with rfl | rfl
    · exact ⟨hI, follows_refl _ _ _, trivial⟩
    · exact ⟨hI.note rfl rfl rfl (fun s hs => absurd hs not_mem_nil) nofun nofun,
        follows_guarded hA.guard rfl rfl rfl (fun s hs => absurd hs not_mem_nil) nofun, trivial⟩
  · cases r <;> exact fun _ _ _ => trivial

/-- The common beginning of the two attempts: the hash that was read stays the password's. -/
theorem attempt_lawful {k : Instant → String → Handler α}
    (hk : ∀ now passwordHash, Obeys strict i (k now passwordHash)
      (Holds i now (some passwordHash) none)) :
    Obeys strict i (do
      let now ← ask .now
      let _ ← ensureNotThrottled now
      let row ← ask .passwordHash
      let row ← Prog.accept row
      let passwordHash ← orStop row .setupRequired
      k now passwordHash) (fun w => w.guard = some i) := by
  refine valid_call (fun now => Holds i now none none) (fun now => stable_holds i now _ _) ?_
    fun now => holds_bind (ensureNotThrottled_still now) fun _ => ?_
  · intro w c r w' hI hA _ hact
    obtain ⟨hI', hG⟩ := hI.still (e := .now) (i := i) trivial hact
    cases hact
    exact ⟨hI', hG, hA, Int.le_refl _, nofun, nofun⟩
  · refine valid_call (fun r => Holds i now r.toOption.join none)
      (fun r => stable_holds i now _ _) ?_ fun r => ?_
    · intro w c r w' hI hA _ hact
      obtain ⟨hI', hG⟩ := hI.still (e := .passwordHash) (i := i) trivial hact
      have hA' := hA.still (e := .passwordHash) trivial hact
      cases hact
      refine ⟨hI', hG, hA'.guard, hA'.clock, fun h hh => ?_, nofun⟩
      unfold World.read at hh
      split at hh
      · exact hh
      · cases hh
    · refine valid_orElse_bind (fun row hr => ?_) fun _ _ _ _ _ => trivial
      refine valid_orStop_bind (fun passwordHash hrow => ?_) fun _ _ _ _ => trivial
      subst hr hrow
      exact hk now passwordHash

theorem login_lawful {username password : String} : Obeys strict i (login sha256 username password)
    (fun _ => True) := by
  refine withCredentialGuard_lawful (attempt_lawful fun now passwordHash => ?_)
  refine holds_bind ?_ fun valid => ?_
  · unfold credentialsValid
    split
    · exact verify_still
    · trivial
  · cases valid with
    | true => exact openSession_lawful
    | false => exact reject_lawful

theorem changePassword_lawful {currentPassword newPassword : String} :
    Obeys strict i (changePassword currentPassword newPassword) fun _ => True := by
  refine withCredentialGuard_lawful (attempt_lawful fun now passwordHash => ?_)
  refine holds_bind verify_still fun valid => ?_
  cases valid with
  | true => exact replacePassword_lawful
  | false => exact reject_lawful

theorem logout_lawful {token : String} : Obeys strict i (logout sha256 token) (fun _ => True) := by
  refine valid_call (fun _ _ => True) (fun _ => stable_true) ?_ fun r => ?_
  · intro w c r w' hI _ _ hact
    refine hI.delete (Option.some.inj hact) (fun s hs => ?_) nofun nofun nofun
    obtain ⟨hs, hne⟩ := List.mem_filter.mp hs
    exact ⟨hs, fun hends => (by simpa using hne : s.tokenHash ≠ sha256 token) hends.symm⟩
  · cases r <;> exact fun _ _ _ => trivial

theorem revokeAll_lawful : Obeys strict i revokeAll fun _ => True := by
  refine valid_call (fun _ _ => True) (fun _ => stable_true) ?_ fun r => ?_
  · intro w c r w' hI _ _ hact
    exact hI.delete (Option.some.inj hact) (fun s hs => absurd hs not_mem_nil) nofun nofun nofun
  · cases r <;> exact fun _ _ _ => trivial

theorem handle_lawful (sha256 : String → Bytes) (request : Request) :
    Obeys strict i (handle sha256 request) fun _ => True := by
  have hauth : ∀ token, Obeys strict i (authenticate sha256 token) fun _ => True :=
    authenticate_lawful sha256
  cases request with
  | login username password =>
    exact valid_bind login_lawful (fun _ _ _ _ => trivial) fun _ _ _ _ => trivial
  | authenticated token =>
    exact valid_bind (hauth token) (fun _ _ _ _ => trivial) fun _ _ _ _ => trivial
  | logout token =>
    exact valid_bind (hauth token) (fun _ => logout_lawful) fun _ _ _ _ => trivial
  | revokeAll token =>
    exact valid_bind (hauth token) (fun _ => revokeAll_lawful) fun _ _ _ _ => trivial
  | changePassword token currentPassword newPassword =>
    exact valid_bind (hauth token) (fun _ => changePassword_lawful) fun _ _ _ _ => trivial

theorem serve_lawful (sha256 : String → Bytes) (request : Request) (i : Nat) :
    Obeys strict i (serve sha256 request) fun _ => True :=
  valid_bind (valid_attempt (Q := fun _ _ => True) (handle_lawful sha256 request))
    (fun _ _ _ _ => trivial) fun _ _ _ _ => trivial

end Programs

/-! ## Whole histories -/

theorem lawful_start (strict : Prop) (passwordHash : Option String) (clock : Instant) :
    Lawful strict (World.start passwordHash [] clock) where
  rows := fun _ h => absurd h not_mem_nil
  live := fun _ h => absurd h not_mem_nil
  unique := fun _ _ _ _ _ _ h => absurd h not_mem_nil
  drawn := fun _ _ _ h => absurd h not_mem_nil
  accepted := fun later _ _ _ _ heq => by cases later <;> cases heq
  inForce := fun _ _ _ h => absurd h not_mem_nil

section Histories

variable (sha256 : String → Bytes) (passwordHash : Option String) (clock : Instant)

/-- The service when it starts, before any session. -/
def opened : Pool Call Answer World := ⟨World.start passwordHash [] clock, 0, []⟩

/-- The world after a history. -/
def reached (moves : List (interface.Move Request)) : World :=
  (play (interface.move (serve sha256)) (opened passwordHash clock) moves).world

/-- In the history no refresh is written after the deadline that it replaces. -/
def TimelyHistory (strict : Prop) (moves : List (interface.Move Request)) : Prop :=
  Along (interface.move (serve sha256))
    (interface.Meets (Timely strict) (fun _ _ => True) fun _ => True) (opened passwordHash clock)
    moves

instance (strict : Prop) [Decidable strict] (moves : List (interface.Move Request)) :
    Decidable (TimelyHistory sha256 passwordHash clock strict moves) :=
  inferInstanceAs (Decidable (Along _ _ _ _))

/-- Without the condition, this is every history. -/
theorem timelyHistory_false (moves : List (interface.Move Request)) :
    TimelyHistory sha256 passwordHash clock False moves := by
  have hany : ∀ w i (e : Call) (c : Pick e), Timely False w i e c := by
    intro w i e c
    cases e with
    | refresh => exact fun h => h.elim
    | _ => trivial
  refine along_of_forall (fun s m => ?_) _ _
  unfold Meets
  split
  · trivial
  · split
    · exact hany _ _ _ _
    · trivial
  · trivial
  · trivial

variable {sha256 passwordHash clock} {moves : List (interface.Move Request)}

/-- After every history each row of the table belongs to a session that has not ended. -/
theorem lawful_reached (hmoves : TimelyHistory sha256 passwordHash clock strict moves) :
    Lawful strict (reached sha256 passwordHash clock moves) :=
  sound_play (serve_lawful sha256) (fun _ i hI _ => hI.leave i)
    (fun _ hI _ => hI.same (Int.le_refl _) rfl (fun _ h => h) rfl)
    (lawful_start strict passwordHash clock) hmoves

/-- What has ended stays so, and is not alive to a request that begins later. -/
def Closes (w w' : World) : Prop :=
  ∃ new, w'.log = new ++ w.log ∧
    ∀ id, Ended w id → Ended w' id ∧ ∀ i live, .began i live ∈ new → id ∉ live

theorem Closes.trans {w'' : World} (h : Closes w w') (h' : Closes w' w'') : Closes w w'' := by
  obtain ⟨new, hlog, hended⟩ := h
  obtain ⟨new', hlog', hended'⟩ := h'
  refine ⟨new' ++ new, by rw [hlog', hlog, List.append_assoc], fun id hid => ?_⟩
  obtain ⟨hid', hlive⟩ := hended id hid
  obtain ⟨hid'', hlive'⟩ := hended' id hid'
  refine ⟨hid'', fun i live hmem => ?_⟩
  rcases List.mem_append.mp hmem with hmem | hmem
  · exact hlive' i live hmem
  · exact hlive i live hmem

theorem Follows.closes (h : Follows True j w w') : Closes w w' := by
  obtain ⟨new, hlog, hadds⟩ := h.log
  exact ⟨new, hlog, fun id hid => ⟨h.ended trivial id hid, hadds.live trivial id hid⟩⟩

/-- A session that has ended stays ended, if no refresh is late. -/
theorem closes_reached {first rest : List (interface.Move Request)}
    (hmoves : TimelyHistory sha256 passwordHash clock True (first ++ rest)) :
    Closes (reached sha256 passwordHash clock first)
      (reached sha256 passwordHash clock (first ++ rest)) := by
  have hboot : ∀ w : World, Closes w w.reboot := fun w =>
    ⟨[], rfl, fun _ hid => ⟨hid.mono (Int.le_refl _) (fun _ he => he) fun _ hs _ => hs,
      fun _ _ hmem => absurd hmem not_mem_nil⟩⟩
  exact sound_play_between (serve_lawful sha256) (fun _ i hI _ => hI.leave i)
    (fun _ hI _ => hI.same (Int.le_refl _) rfl (fun _ h => h) rfl)
    (fun w => (follows_refl True 0 w).closes) (fun _ _ _ => Closes.trans)
    (fun _ _ _ => Follows.closes) hboot (lawful_start True passwordHash clock) hmoves

/-- The latest begin of a request. -/
theorem exists_latest_began {live : List Uuid} (h : .began i live ∈ log) :
    ∃ mid live before, log = mid ++ .began i live :: before ∧ ∀ live, .began i live ∉ mid := by
  induction log with
  | nil => exact absurd h not_mem_nil
  | cons e log ih =>
    by_cases he : ∃ live, e = .began i live
    · obtain ⟨live, rfl⟩ := he
      exact ⟨[], live, log, rfl, fun _ => not_mem_nil⟩
    · rcases mem_cons.mp h with rfl | h
      · exact absurd ⟨live, rfl⟩ he
      · obtain ⟨mid, live', before, rfl, hmid⟩ := ih h
        refine ⟨e :: mid, live', before, rfl, fun live'' hmem => ?_⟩
        rcases mem_cons.mp hmem with rfl | hmem
        · exact he ⟨live'', rfl⟩
        · exact hmid live'' hmem

/-- A request that began when its session had ended is not admitted. -/
theorem Admitted.not_ended {recent earlier : List Event} {now : Int} {live : List Uuid}
    (h : Admitted True (recent ++ earlier) i id now) (hknown : Known earlier id)
    (hlive : ∀ i live, .began i live ∈ recent → id ∉ live) : .began i live ∉ recent := by
  intro hbegan
  obtain ⟨mid, before, hlog, hmid, -, hstart⟩ := h
  obtain ⟨mid', live', before', rfl, hmid'⟩ := exists_latest_began hbegan
  rw [List.append_assoc, List.cons_append] at hlog
  -- the admission is later than the latest begin
  rcases List.append_eq_append_iff.mp hlog with ⟨x, rfl, hx⟩ | ⟨x, rfl, hx⟩
  · cases x with
    | nil => cases (List.cons.inj hx).1
    | cons e x =>
      obtain ⟨rfl, -⟩ := List.cons.inj hx
      exact hmid live' (List.mem_append_right _ mem_cons_self)
  · cases x with
    | nil => cases (List.cons.inj hx).1
    | cons e x =>
      obtain ⟨rfl, rfl⟩ := List.cons.inj hx
      refine hlive i live' (List.mem_append_right _ mem_cons_self) (hstart trivial x live' _ rfl ?_
        (hknown.mono fun _ he => List.mem_append_right _ he))
      exact fun live hmem => hmid' live (List.mem_append_right _ (mem_cons_of_mem _ hmem))

end Histories

/-- Every request that found its session alive was accepted. -/
def Answered (log : List Event) : Prop :=
  ∀ i id now, .admitted i id now ∈ log → .accepted i id now ∈ log

/-- The hash of a token. -/
def hashed (token : String) : Bytes := Sha256.sha256 (token.toList.map fun c => c.toNat.toUInt8)

/-- Nothing fails, and the clock has moved on by some minutes when it is read. -/
def rightAfter (minutes : Nat) : (e : Call) → Pick e
  | .now => (Instant.minutes minutes).toNat
  | .verify _ _ _ => .ok true
  | e => wrongPassword e

/-- The next `steps` calls of thread `i`. -/
def runs (i steps minutes : Nat) : List (interface.Move Request) :=
  List.replicate steps (.run i (rightAfter minutes))

/-- A login, as thread 0. -/
def loggedIn : List (interface.Move Request) :=
  .start (.login "admin" "password") :: runs 0 11 0

/-- The world after a login and these moves. -/
def afterLogin (moves : List (interface.Move Request)) : World :=
  reached hashed (some "hash") 0 (loggedIn ++ moves)

/-- Requests of the session after 30 and 80 minutes, and then one that revokes all sessions. -/
def inTurn : List (interface.Move Request) :=
  .start (.authenticated "token") :: runs 1 7 30 ++ .start (.authenticated "token") :: runs 2 7 50
  ++ .start (.revokeAll "token") :: runs 3 7 1

/-- A request finds the session alive after 59 minutes, and then the clock is read at 61. -/
def untilDeadline : List (interface.Move Request) :=
  .start (.authenticated "token") :: runs 1 4 59 ++ .start (.login "guest" "password") :: runs 2 2 2

/-- Another request begins, the first one refreshes, and the other one reads the row. -/
def lateRefresh : List (interface.Move Request) :=
  .start (.authenticated "token") :: runs 3 1 0 ++ runs 1 1 0 ++ runs 3 4 1

/-- A request refreshes the session after 59 minutes and is given up; another comes after 100. -/
def abandoned : List (interface.Move Request) :=
  .start (.authenticated "token") :: runs 1 5 59 ++ .drop 1 ::
    .start (.authenticated "token") :: runs 2 6 41

/-- In the same histories, whenever a refresh is written, what a row says is true: a login created
its session at that time, under an id of its own; it expires twelve hours later, and an hour after
it was last seen at the latest; and it was last seen when it was created or when a request of it
found it alive. -/
theorem session_rows_truthful (sha256 : String → Bytes) (passwordHash : Option String)
    (clock : Instant) (moves : List (interface.Move Request)) :
    let w := (play (interface.move (serve sha256))
      ⟨World.start passwordHash [] clock, 0, []⟩ moves).world
    (∀ s ∈ w.sessions, Row w s) ∧
    ∀ s verified inForce s' verified' inForce', .created s verified inForce ∈ w.log →
      .created s' verified' inForce' ∈ w.log → s.id = s'.id → s = s' := by
  intro w
  have hlawful : Lawful False w :=
    lawful_reached (timelyHistory_false sha256 passwordHash clock moves)
  exact ⟨hlawful.rows, hlawful.unique⟩

end SoloDock.Auth
