import SoloDock.Lib.Encoding
import SoloDock.Lib.Window
import Mathlib.Data.List.AList
import Mathlib.Data.Finset.Card

/-!
# The rate limiter of the webhook

`src/webhook/rate.rs`: one counter for all requests and one for each known app, which all
start again once a minute has passed. A window restarts when a request finds it over, so an
interval of a minute can meet two windows, and twice the limits.
-/

namespace SoloDock.Webhook.Rate

open Lib

/-- `State`; the clock is read in nanoseconds. -/
structure State where
  window : Nat
  global : Nat
  apps : AList fun _ : Uuid => Nat

def State.default (now : Nat) : State := ⟨now, 0, ∅⟩

/-- One call of `check`, with the two times it reads the clock: for `window.elapsed()` and,
where the window is over, for the new window. -/
structure Request where
  appId : Option Uuid
  knownApp : Bool
  checkedAt : Nat
  restartedAt : Nat

/-- The app whose counter a request uses. -/
def Request.knownId (r : Request) : Option Uuid := if r.knownApp then r.appId else none

/-- `Duration::from_secs(60)`. -/
def span : Nat := 60000000000

/-- `check`, up to the restart of the window. -/
def State.renew (s : State) (r : Request) : State :=
  if span ≤ r.checkedAt - s.window then .default r.restartedAt else s

/-- `check`, from there on: the request is counted, and the answer is whether it may pass. -/
def State.tally (s : State) (r : Request) : Bool × State :=
  if 120 ≤ s.global then (false, s)
  else
    match r.knownId with
    | none => (true, { s with global := s.global + 1 })
    | some id =>
      let count := (s.apps.lookup id).getD 0
      if 10 ≤ count then
        (false, { s with global := s.global + 1, apps := s.apps.insert id count })
      else
        (true, { s with global := s.global + 1, apps := s.apps.insert id (count + 1) })

def State.check (s : State) (r : Request) : Bool × State := (s.renew r).tally r

/-- The requests of a run that pass. -/
def admitted : State → List Request → List Request
  | _, [] => []
  | s, r :: rest =>
    if (s.check r).1 then r :: admitted (s.check r).2 rest else admitted (s.check r).2 rest

/-- The state after a run. -/
def after (s : State) (requests : List Request) : State :=
  requests.foldl (fun s r => (s.check r).2) s

/-- The readings of the clock do not decrease. -/
def Clock : Nat → List Request → Prop
  | _, [] => True
  | now, r :: rest => now ≤ r.checkedAt ∧ r.checkedAt ≤ r.restartedAt ∧ Clock r.restartedAt rest

instance : ∀ now requests, Decidable (Clock now requests)
  | _, [] => .isTrue trivial
  | _, r :: rest =>
    have := instDecidableClock r.restartedAt rest
    inferInstanceAs (Decidable (_ ∧ _))

/-- The half-open interval of a minute from `a` on. -/
def within (a : Nat) (r : Request) : Bool := a ≤ r.checkedAt && r.checkedAt < a + span

/-! ## Both counters -/

theorem tally_window (s : State) (r : Request) : (s.tally r).2.window = s.window := by
  unfold State.tally
  grind

/-- A counter of the state: the requests it counts pass only below its limit. -/
structure Meter where
  count : State → Nat
  limit : Nat
  counts : Request → Bool
  default_count : ∀ now, count (.default now) = 0
  counted : ∀ s r, (s.tally r).1 = true → counts r = true →
    count s < limit ∧ count (s.tally r).2 = count s + 1
  keeps : ∀ s r, count s ≤ limit → count s ≤ count (s.tally r).2 ∧ count (s.tally r).2 ≤ limit

/-- The requests counted in the interval. -/
def Meter.seen (m : Meter) (a : Nat) (requests : List Request) : List Request :=
  requests.filter fun r => m.counts r && within a r

variable {requests : List Request} {s : State}

section Meter

variable {m : Meter} {a seen now : Nat} {r : Request}

theorem Meter.renew (h : Counted span m.limit a s.window (m.count s) seen r.checkedAt)
    (hle : r.checkedAt ≤ r.restartedAt) :
    Counted span m.limit a (s.renew r).window (m.count (s.renew r)) seen r.checkedAt := by
  unfold State.renew
  split
  case isTrue hover =>
    rw [m.default_count]
    refine h.restart ?_ hle
    unfold span at *
    omega
  case isFalse => exact h

theorem Meter.tally (h : Counted span m.limit a s.window (m.count s) seen r.checkedAt) :
    Counted span m.limit a (s.tally r).2.window (m.count (s.tally r).2)
      (seen + (m.seen a (if (s.tally r).1 then [r] else [])).length) r.checkedAt := by
  rw [tally_window]
  have hkeeps := m.keeps s r h.count_le
  by_cases hhit : (s.tally r).1 = true ∧ m.counts r = true ∧ within a r = true
  · obtain ⟨hpass, hcounts, hin⟩ := hhit
    have hone : (m.seen a (if (s.tally r).1 then [r] else [])).length = 1 := by
      simp [Meter.seen, hpass, hcounts, hin]
    rw [hone]
    have hcounted := m.counted s r hpass hcounts
    refine h.count_event hkeeps.2 (by omega) (.inr ?_)
    simpa [within] using hin
  · have hnone : (m.seen a (if (s.tally r).1 then [r] else [])).length = 0 := by
      rw [List.length_eq_zero_iff, Meter.seen, List.filter_eq_nil_iff]
      intro x hx hboth
      split at hx
      case isTrue hpass =>
        obtain rfl := List.mem_singleton.1 hx
        exact hhit ⟨hpass, by simpa using hboth⟩
      case isFalse => cases hx
    rw [hnone]
    exact h.count_event hkeeps.2 (by omega) (.inl rfl)

/-- In an interval of one span a meter admits at most twice its limit. -/
theorem Meter.run
    (h : Counted span m.limit a s.window (m.count s) seen now) (hclock : Clock now requests) :
    seen + (m.seen a (admitted s requests)).length ≤ 2 * m.limit := by
  induction requests generalizing s seen now with
  | nil => simpa [admitted, Meter.seen] using h.le_twice
  | cons r rest ih =>
    obtain ⟨hnow, hle, hrest⟩ := hclock
    have hstep := Meter.tally (Meter.renew (h.later hnow) hle)
    have hrun := ih (hstep.later hle) hrest
    have hsplit : admitted s (r :: rest) =
        (if (s.check r).1 then [r] else []) ++ admitted (s.check r).2 rest := by
      rw [admitted]
      split <;> rfl
    rw [hsplit, Meter.seen, List.filter_append, List.length_append, ← Nat.add_assoc]
    exact hrun

end Meter

/-- The counter of all requests. -/
def globalMeter : Meter where
  count := State.global
  limit := 120
  counts _ := true
  default_count _ := rfl
  counted s r hpass _ := by
    unfold State.tally at *
    grind
  keeps s r hle := by
    unfold State.tally
    grind

/-- The counter of a known app. -/
def appMeter (id : Uuid) : Meter where
  count s := (s.apps.lookup id).getD 0
  limit := 10
  counts r := r.knownId = some id
  default_count _ := rfl
  counted s r hpass hid := by
    unfold State.tally at *
    grind [AList.lookup_insert]
  keeps s r hle := by
    have hinsert (other : Uuid) (n : Nat) : ((s.apps.insert other n).lookup id).getD 0 =
        if id = other then n else (s.apps.lookup id).getD 0 := by
      split
      next heq => rw [heq, AList.lookup_insert]; rfl
      next hne => rw [AList.lookup_insert_ne hne]
    unfold State.tally
    grind

/-! ## The counters that are kept -/

/-- A check adds at most the app of the request. -/
theorem mem_check {r : Request} {id : Uuid} (h : id ∈ (s.check r).2.apps) :
    id ∈ s.apps ∨ r.knownId = some id := by
  have hrenew : id ∈ (s.renew r).apps → id ∈ s.apps := by
    unfold State.renew
    split
    · exact fun h => absurd h (AList.notMem_empty id)
    · exact fun h => h
  unfold State.check State.tally at h
  grind [AList.mem_insert]

/-- Requests add at most their own apps. -/
theorem mem_after {id : Uuid}
    (h : id ∈ (after s requests).apps) : id ∈ s.apps ∨ id ∈ requests.filterMap Request.knownId := by
  induction requests generalizing s with
  | nil => exact .inl h
  | cons r rest ih =>
    rcases ih h with hcheck | hrest
    · rcases mem_check hcheck with hs | hr
      · exact .inl hs
      · exact .inr (List.mem_filterMap.2 ⟨r, List.mem_cons_self, hr⟩)
    · obtain ⟨r', hr', hid⟩ := List.mem_filterMap.1 hrest
      exact .inr (List.mem_filterMap.2 ⟨r', List.mem_cons_of_mem r hr', hid⟩)

/-- In every interval of a minute at most 240 requests pass, and at most 20 of a known app;
a request for an unknown app makes no counter, and there are no more counters than known
apps were seen. -/
theorem check_limits (start : Nat) (requests : List Request) (hclock : Clock start requests) :
    (∀ a, ((admitted (.default start) requests).filter (within a)).length ≤ 240) ∧
    (∀ a id, ((admitted (.default start) requests).filter fun r =>
      r.knownId = some id && within a r).length ≤ 20) ∧
    (∀ s : State, ∀ r ∈ requests, r.knownApp = false →
      ∀ id, id ∈ (s.check r).2.apps → id ∈ s.apps) ∧
    (after (.default start) requests).apps.keys.length ≤
      (requests.filterMap Request.knownId).toFinset.card := by
  refine ⟨fun a => ?_, fun a id => ?_, fun s r _ hunknown id hid => ?_, ?_⟩
  · have hrun := Meter.run (m := globalMeter) (s := .default start)
      (Counted.start span 120 a start start) hclock
    simpa [Meter.seen, globalMeter] using hrun
  · have hrun := Meter.run (m := appMeter id) (s := .default start)
      (Counted.start span 10 a start start) hclock
    simpa [Meter.seen, appMeter] using hrun
  · rcases mem_check hid with hs | hr
    · exact hs
    · simp [Request.knownId, hunknown] at hr
  · rw [← List.toFinset_card_of_nodup (AList.keys_nodup _)]
    refine Finset.card_le_card fun id hid => ?_
    rcases mem_after (AList.mem_keys.2 (List.mem_toFinset.1 hid)) with hempty | hseen
    · exact absurd hempty (AList.notMem_empty id)
    · exact List.mem_toFinset.2 hseen

/-- Eleven requests of an app at the end of a window, and one when it is over. -/
def burst : List Request :=
  List.replicate 11 ⟨some 7, true, span - 1, span - 1⟩ ++ [⟨some 7, true, span, span⟩]

/-- The eleventh is refused and the one in the next window passes, so that an interval that meets
both windows has eleven; the app has one counter. -/
theorem burst_limited :
    let passed := admitted (.default 0) burst
    (passed.map (·.checkedAt) = List.replicate 10 (span - 1) ++ [span]) ∧
      passed.filter (fun r => r.knownId = some 7 && within (span - 1) r) = passed ∧
      passed.length ≤ 20 ∧ (after (.default 0) burst).apps.keys.length ≤ 1 := by
  intro passed
  have hlimits := check_limits 0 burst (by decide)
  have hwithin : passed.filter (fun r => r.knownId = some 7 && within (span - 1) r) = passed :=
    List.filter_eq_self.mpr (by decide +kernel)
  exact ⟨by decide +kernel, hwithin, hwithin ▸ hlimits.2.1 (span - 1) 7, hlimits.2.2.2⟩

end SoloDock.Webhook.Rate
