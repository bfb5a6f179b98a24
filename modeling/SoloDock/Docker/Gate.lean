import SoloDock.Lib.Encoding
import SoloDock.Lib.History
import SoloDock.Lib.Keyed

/-!
# The gate of the streams

`StreamGate` of `src/api/streams.rs` counts the streams that are open, by session, kind and app,
and refuses one that is over a limit or whose app is being deleted. Its counters are maps that
have no entry for zero, and the wait of a deletion looks for entries. In every run the counters
are those of the permits that are held (`Counted.step`), so the limits hold of the permits
(`streams_limited`). A deletion waits for the gate and then for `StatsHub` of `src/docker/stats.rs`,
whose producers outlive their streams; after both it has the app for itself (`deletion_alone`).
-/

namespace SoloDock.Docker.Gate

open Lib

/-- `StreamKind`. -/
inductive StreamKind where
  | events | logs | stats
deriving DecidableEq

/-- The limit of a kind, and that of a kind for one app. -/
def StreamKind.limits : StreamKind → Nat × Nat
  | .events => (16, 4)
  | .logs | .stats => (8, 2)

/-- `GateCounts`, without the cancellation tokens. -/
structure GateCounts where
  total : Nat
  sessions : String → Option Nat
  kinds : StreamKind → Option Nat
  apps : StreamKind × Uuid → Option Nat
  blockedApps : List Uuid
  producers : Uuid → Option Nat

/-- `StreamPermit`. -/
structure StreamPermit where
  sessionId : String
  kind : StreamKind
  appId : Uuid
deriving DecidableEq

/-- The part of a stream that is counted for its kind and app. -/
def StreamPermit.place (p : StreamPermit) : StreamKind × Uuid := (p.kind, p.appId)

/-- `StreamGate::acquire_for`. -/
def GateCounts.acquire (c : GateCounts) (p : StreamPermit) : Option GateCounts :=
  if p.appId ∈ c.blockedApps ∨ 24 ≤ c.total ∨ 8 ≤ (c.sessions p.sessionId).getD 0 ∨
      p.kind.limits.1 ≤ (c.kinds p.kind).getD 0 ∨
      p.kind.limits.2 ≤ (c.apps p.place).getD 0 then none
  else some { c with
    total := c.total + 1
    sessions := increment c.sessions p.sessionId
    kinds := increment c.kinds p.kind
    apps := increment c.apps p.place }

/-- The end of a `StreamPermit`. -/
def GateCounts.release (c : GateCounts) (p : StreamPermit) : GateCounts :=
  { c with
    total := c.total - 1
    sessions := decrement c.sessions p.sessionId
    kinds := decrement c.kinds p.kind
    apps := decrement c.apps p.place }

/-- What `AppDeletionBarrier::wait` waits for. -/
def GateCounts.idle (c : GateCounts) (appId : Uuid) : Bool :=
  [.events, .logs, .stats].all (fun kind => (c.apps (kind, appId)).isNone) &&
    (c.producers appId).getD 0 = 0

/-- The gate, and the permits and the producers of logs and of stats that are alive. -/
structure State where
  counts : GateCounts
  permits : List StreamPermit
  producers : List Uuid
  statsProducers : List Uuid

/-- What `StatsHub::cancel_app_and_wait` waits for. -/
def State.statsIdle (s : State) (appId : Uuid) : Prop := appId ∉ s.statsProducers

instance (s : State) (appId : Uuid) : Decidable (s.statsIdle appId) :=
  inferInstanceAs (Decidable (_ ∉ _))

/-- `subscribe` spawns a producer if the container has none that is shared. -/
inductive Action where
  | acquire (p : StreamPermit)
  | release (p : StreamPermit)
  | register (appId : Uuid)
  | unregister (appId : Uuid)
  | subscribe (appId : Uuid) (spawns : Bool)
  | statsEnd (appId : Uuid)
  | beginDeletion (appId : Uuid)
  | rollback (appId : Uuid)

def State.start : State :=
  ⟨⟨0, fun _ => none, fun _ => none, fun _ => none, [], fun _ => none⟩, [], [], []⟩

/-- One step: `logs` registers its producer and `stats` subscribes while they hold a permit for the
app, and a barrier that is dropped before it was committed opens the app again. -/
def step (s : State) : Action → State
  | .acquire p =>
    match s.counts.acquire p with
    | some counts => { s with counts, permits := p :: s.permits }
    | none => s
  | .release p =>
    if p ∈ s.permits then
      { s with counts := s.counts.release p, permits := s.permits.erase p }
    else s
  | .register appId =>
    if s.permits.any (·.appId = appId) then
      { s with
        counts := { s.counts with producers := increment s.counts.producers appId }
        producers := appId :: s.producers }
    else s
  | .unregister appId =>
    if appId ∈ s.producers then
      { s with
        counts := { s.counts with producers := decrement s.counts.producers appId }
        producers := s.producers.erase appId }
    else s
  | .subscribe appId spawns =>
    if s.permits.any (·.place = (.stats, appId)) && spawns then
      { s with statsProducers := appId :: s.statsProducers }
    else s
  | .statsEnd appId => { s with statsProducers := s.statsProducers.erase appId }
  | .beginDeletion appId =>
    { s with counts := { s.counts with blockedApps := s.counts.blockedApps.insert appId } }
  | .rollback appId =>
    { s with counts := { s.counts with blockedApps := s.counts.blockedApps.filter (· ≠ appId) } }

/-! ## The counters are those of the permits -/

/-- What the gate should have counted. -/
def State.counted (s : State) : GateCounts :=
  ⟨s.permits.length, tally (·.sessionId) s.permits, tally (·.kind) s.permits,
    tally (·.place) s.permits, s.counts.blockedApps, tally id s.producers⟩

/-- The counters are true, and no limit is passed. -/
structure Counted (s : State) : Prop where
  counts : s.counts = s.counted
  total : s.permits.length ≤ 24
  sessions : ∀ id, s.permits.countP (·.sessionId = id) ≤ 8
  kinds : ∀ kind, s.permits.countP (·.kind = kind) ≤ kind.limits.1
  apps : ∀ place, s.permits.countP (·.place = place) ≤ place.1.limits.2

variable {s : State}

theorem Counted.acquire (h : Counted s) {p : StreamPermit} {counts : GateCounts}
    (hp : s.counts.acquire p = some counts) :
    Counted { s with counts, permits := p :: s.permits } := by
  rw [h.counts, State.counted, GateCounts.acquire] at hp
  split at hp
  · cases hp
  next hfree =>
    cases hp
    simp only [not_or, Nat.not_le, getD_tally] at hfree
    obtain ⟨-, htotal, hsession, hkind, happ⟩ := hfree
    refine ⟨?_, htotal, countP_cons_le h.sessions hsession, countP_cons_le h.kinds hkind,
      countP_cons_le h.apps happ⟩
    simp [State.counted, ← increment_tally]

theorem Counted.release (h : Counted s) {p : StreamPermit} (hp : p ∈ s.permits) :
    Counted { s with counts := s.counts.release p, permits := s.permits.erase p } := by
  have hsub := List.erase_sublist (a := p) (l := s.permits)
  refine ⟨?_, Nat.le_trans hsub.length_le h.total,
    fun id => Nat.le_trans hsub.countP_le (h.sessions id),
    fun kind => Nat.le_trans hsub.countP_le (h.kinds kind),
    fun place => Nat.le_trans hsub.countP_le (h.apps place)⟩
  rw [h.counts]
  simp [State.counted, GateCounts.release, ← decrement_tally (List.perm_cons_erase hp),
    List.length_erase_of_mem hp]

theorem Counted.step (h : Counted s) (a : Action) : Counted (step s a) := by
  have hcounts := h.counts
  fun_cases Gate.step s a with
  | case1 p counts hp => exact h.acquire hp
  | case3 p hp => exact h.release hp
  | case5 app hany =>
    refine { h with counts := ?_ }
    rw [hcounts]
    simp [State.counted, ← increment_tally]
  | case7 app hp =>
    refine { h with counts := ?_ }
    rw [hcounts]
    simp [State.counted, ← decrement_tally (List.perm_cons_erase hp)]
  | case9 | case11 | case12 | case13 =>
    refine { h with counts := ?_ }
    rw [hcounts]
    rfl
  | case2 | case4 | case6 | case8 | case10 => exact h

/-- The counts are those of the permits held, after every sequence of actions. -/
theorem counted_play (as : List Action) : Counted (play Gate.step .start as) := by
  have hstart : Counted .start := by
    refine ⟨rfl, ?_, ?_, ?_, ?_⟩ <;> simp [State.start]
  exact (along_of_forall (G := fun _ _ => True) (fun _ _ => trivial) _ as).invariant
    (fun s a _ hs => hs.step a) hstart

/-- In every run the counters are true, and the streams that are open are within the limits: 24 in
all, 8 of a session, and those of their kind, in all and for each app. -/
theorem streams_limited (as : List Action) :
    let s := play step .start as
    s.counts = s.counted ∧ s.permits.length ≤ 24 ∧
      (∀ id, s.permits.countP (·.sessionId = id) ≤ 8) ∧
      ∀ kind : StreamKind, s.permits.countP (·.kind = kind) ≤ kind.limits.1 ∧
        ∀ app, s.permits.countP (fun p => p.kind = kind ∧ p.appId = app) ≤ kind.limits.2 := by
  have h := counted_play as
  refine ⟨h.counts, h.total, h.sessions, fun kind => ⟨h.kinds kind, fun app => ?_⟩⟩
  simpa [StreamPermit.place] using h.apps (kind, app)

/-- What the wait sees is what is there. -/
theorem Counted.idle_iff (h : Counted s) (appId : Uuid) : s.counts.idle appId = true ↔
    (∀ p ∈ s.permits, p.appId ≠ appId) ∧ appId ∉ s.producers := by
  rw [h.counts, GateCounts.idle, State.counted, getD_tally, Bool.and_eq_true, List.all_eq_true,
    decide_eq_true_eq, List.countP_eq_zero]
  refine and_congr ⟨fun hnone p hp heq => ?_, fun hnone kind _ => ?_⟩
    (by simpa using List.forall_mem_ne')
  · have hkind := hnone p.kind (by cases p.kind <;> decide)
    exact isNone_tally.mp hkind p hp (by rw [StreamPermit.place, heq])
  · exact isNone_tally.mpr fun p hp heq => hnone p hp (congrArg Prod.snd heq)

/-- The app is blocked, and nobody streams from it. -/
structure Alone (appId : Uuid) (s : State) : Prop where
  blocked : appId ∈ s.counts.blockedApps
  permits : ∀ p ∈ s.permits, p.appId ≠ appId
  producers : appId ∉ s.producers

/-- An action other than the rollback admits no stream of the app. -/
theorem Alone.step {appId : Uuid} (h : Alone appId s) {a : Action} (ha : a ≠ .rollback appId) :
    Alone appId (step s a) := by
  fun_cases Gate.step s a with
  | case1 p counts hp =>
    -- the gate has not let in the app that is blocked
    unfold GateCounts.acquire at hp
    split at hp
    · cases hp
    next hfree =>
      cases hp
      have hne : p.appId ≠ appId := fun heq => hfree (.inl (heq ▸ h.blocked))
      exact { h with permits := List.forall_mem_cons.mpr ⟨hne, h.permits⟩ }
  | case3 p hp => exact { h with permits := fun q hq => h.permits q (List.mem_of_mem_erase hq) }
  | case5 app hany =>
    -- its stream has a permit, so it is another app's
    obtain ⟨p, hp, happ⟩ := List.any_eq_true.mp hany
    have hne : appId ≠ app := fun heq => h.permits p hp ((of_decide_eq_true happ).trans heq.symm)
    exact { h with producers := List.not_mem_cons_of_ne_of_not_mem hne h.producers }
  | case7 app hp =>
    exact { h with producers := fun hmem => h.producers (List.mem_of_mem_erase hmem) }
  | case9 | case11 => exact { h with }
  | case12 app => exact { h with blocked := List.mem_insert_of_mem h.blocked }
  | case13 app =>
    have hne : appId ≠ app := fun heq => ha (by rw [heq])
    exact { h with blocked := List.mem_filter.mpr ⟨h.blocked, decide_eq_true hne⟩ }
  | case2 | case4 | case6 | case8 | case10 => exact h

/-- A stats producer is only spawned for a stream that has a permit. -/
theorem Alone.statsIdle {appId : Uuid} (h : Alone appId s) (hidle : s.statsIdle appId)
    (a : Action) :
    (Gate.step s a).statsIdle appId := by
  fun_cases Gate.step s a with
  | case9 app spawns hspawns =>
    obtain ⟨p, hp, hplace⟩ := List.any_eq_true.mp (Bool.and_eq_true_iff.mp hspawns).1
    have happ : p.appId = app := congrArg Prod.snd (of_decide_eq_true hplace)
    have hne : appId ≠ app := fun heq => h.permits p hp (happ.trans heq.symm)
    exact List.not_mem_cons_of_ne_of_not_mem hne hidle
  | case11 app => exact fun hmem => hidle (List.mem_of_mem_erase hmem)
  | _ => exact hidle

/-- While the deletion is not rolled back, no stream of the app comes back. -/
theorem Alone.play {appId : Uuid} (h : Alone appId s) {as : List Action}
    (has : .rollback appId ∉ as) : Alone appId (play Gate.step s as) ∧
      (s.statsIdle appId → (Lib.play Gate.step s as).statsIdle appId) := by
  induction as generalizing s with
  | nil => exact ⟨h, fun hidle => hidle⟩
  | cons a as ih =>
    obtain ⟨ha, has⟩ := not_or.mp fun hor => has (List.mem_cons.mpr hor)
    obtain ⟨halone, hstats⟩ := ih (h.step (Ne.symm ha)) has
    exact ⟨halone, fun hidle => hstats (h.statsIdle hidle a)⟩

/-- Once a deletion that has blocked its app has found the gate idle, and after that the stats hub,
there is no stream and no producer of the app until its barrier is dropped uncommitted. -/
theorem deletion_alone (as bs cs : List Action) (appId : Uuid)
    (hblocked : appId ∈ (play step .start as).counts.blockedApps)
    (hidle : (play step .start as).counts.idle appId = true) (hbs : .rollback appId ∉ bs)
    (hstats : (play step (play step .start as) bs).statsIdle appId) (hcs : .rollback appId ∉ cs) :
    let s := play step (play step (play step .start as) bs) cs
    (∀ p ∈ s.permits, p.appId ≠ appId) ∧ appId ∉ s.producers ∧ appId ∉ s.statsProducers := by
  obtain ⟨hpermits, hproducers⟩ := ((counted_play as).idle_iff appId).mp hidle
  have halone : Alone appId (play step .start as) := ⟨hblocked, hpermits, hproducers⟩
  obtain ⟨hend, hsilent⟩ := (halone.play hbs).1.play hcs
  exact ⟨hend.permits, hend.producers, hsilent hstats⟩

/-- A stats stream ends and its producer a little later; then the app cannot be streamed. -/
theorem deleted_app_refused :
    let p : StreamPermit := ⟨"s", .stats, 7⟩
    let waited := play step .start [.acquire p, .subscribe 7 true, .beginDeletion 7, .release p]
    waited.counts.idle 7 = true ∧ ¬waited.statsIdle 7 ∧
      p ∉ (play step (play step waited [.statsEnd 7]) [.acquire p, .subscribe 7 true]).permits := by
  refine ⟨by decide, by decide, fun hp => ?_⟩
  exact (deletion_alone _ _ _ 7 (by decide) (by decide) (by simp) (by decide) (by simp)).1 _ hp rfl

end SoloDock.Docker.Gate
