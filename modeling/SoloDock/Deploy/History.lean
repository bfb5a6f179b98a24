import SoloDock.Deploy.Recorded
import SoloDock.Lib.Paging

/-!
# The history of an app's deployments

`list` and `list_page` of `deploy/ledger.rs`. The listing is ordered by the time of creation
and, for equal times, by id, the newest first; a page starts after the deployment its cursor
names. Times compare as the texts they are stored as, ids as the numbers they are, which is
how their canonical texts compare.

`history_read_by_pages`: following the cursors reads every deployment of the app once, in the
order of the listing.
-/

namespace SoloDock.Deploy

open Lib

/-- A table of deployments with its primary key. -/
structure Deployments where
  rows : List Row
  keyed : rows.Pairwise fun r r' => r.id ≠ r'.id

/-- The table that a history of statements leaves. -/
def Deployments.after (deeds : List Deed) : Deployments :=
  ⟨(play Tables.step Tables.empty deeds).deployments, (play_lawful deeds).keyed⟩

/-- `r` comes before `r'` in `ORDER BY created_at DESC,id DESC`. -/
def newer (r r' : Row) : Bool :=
  decide (r'.createdAt < r.createdAt) || (r'.createdAt = r.createdAt && decide (r'.id < r.id))

namespace Deployments

/-- `SELECT * … WHERE … ORDER BY created_at DESC,id DESC`. -/
def select (d : Deployments) (p : Row → Bool) : List Row :=
  (d.rows.filter p).mergeSort fun r r' => !newer r' r

/-- The listing of an app without a limit. -/
def history (d : Deployments) (app : Uuid) : List Row := d.select (·.appId = app)

def list (d : Deployments) (app : Uuid) (limit : Nat) : List Row :=
  (d.history app).take (min limit 50)

/-- The rows `list_page` fetches: one more than the page may hold. -/
def fetchPage (d : Deployments) (app : Uuid) (limit : Nat) (cursor : Option Uuid) :
    Except LedgerError (List Row) :=
  match cursor with
  | some cursor =>
    match d.rows.find? fun r => r.id = cursor && r.appId = app with
    | none => .error .corrupt
    | some row => .ok ((d.select fun r => r.appId = app && newer row r).take (limit + 1))
  | none => .ok ((d.history app).take (limit + 1))

/-- `limit.clamp(1, 50)`. -/
def clamped (limit : Nat) : Nat := min (max limit 1) 50

def listPage (d : Deployments) (app : Uuid) (limit : Nat) (cursor : Option Uuid) :
    Except LedgerError (List Row × Option Uuid) :=
  (d.fetchPage app (clamped limit) cursor).map fun values =>
    (values.take (clamped limit),
      if clamped limit < values.length then (values.take (clamped limit)).getLast?.map (·.id)
      else none)

end Deployments

/-! ## The order -/

variable {r r' : Row}

theorem newer_iff :
    newer r r' = true ↔ r'.createdAt < r.createdAt ∨ r'.createdAt = r.createdAt ∧ r'.id < r.id := by
  simp [newer]

theorem newer_irrefl (r : Row) : newer r r = false := by
  rw [← Bool.not_eq_true, newer_iff]
  rintro (h | ⟨-, h⟩)
  · exact String.lt_irrefl _ h
  · exact Nat.lt_irrefl _ h

theorem newer_trans {r'' : Row} (h : newer r r' = true) (h' : newer r' r'' = true) :
    newer r r'' = true := by
  rw [newer_iff] at h h' ⊢
  rcases h with h | ⟨h, hid⟩
  · rcases h' with h' | ⟨h', -⟩
    · exact .inl (String.lt_trans h' h)
    · exact .inl (h' ▸ h)
  · rcases h' with h' | ⟨h', hid'⟩
    · exact .inl (h ▸ h')
    · exact .inr ⟨h'.trans h, Nat.lt_trans hid' hid⟩

theorem newer_asymm (h : newer r r' = true) : newer r' r = false := by
  rw [← Bool.not_eq_true]
  intro h'
  have hself := newer_trans h h'
  rw [newer_irrefl] at hself
  cases hself

theorem not_newer_iff : newer r' r = false ↔
    r'.createdAt < r.createdAt ∨ r'.createdAt = r.createdAt ∧ r'.id ≤ r.id := by
  rw [← Bool.not_eq_true, newer_iff]
  constructor
  · intro h
    by_cases hlt : r'.createdAt < r.createdAt
    · exact .inl hlt
    · have heq : r'.createdAt = r.createdAt :=
        String.le_antisymm (String.not_lt.mp fun hgt => h (.inl hgt)) (String.not_lt.mp hlt)
      exact .inr ⟨heq, Nat.le_of_not_lt fun hid => h (.inr ⟨heq.symm, hid⟩)⟩
  · rintro (h | ⟨h, hid⟩) (hgt | ⟨heq, hgt⟩)
    · exact String.lt_asymm h hgt
    · exact String.lt_irrefl _ (heq ▸ h)
    · exact String.lt_irrefl _ (h ▸ hgt)
    · exact Nat.lt_irrefl _ (Nat.lt_of_lt_of_le hgt hid)

theorem not_newer_trans {r'' : Row} (h : newer r' r = false) (h' : newer r'' r' = false) :
    newer r'' r = false := by
  rw [not_newer_iff] at h h' ⊢
  rcases h with h | ⟨h, hid⟩
  · rcases h' with h' | ⟨h', -⟩
    · exact .inl (String.lt_trans h' h)
    · exact .inl (h' ▸ h)
  · rcases h' with h' | ⟨h', hid'⟩
    · exact .inl (h ▸ h')
    · exact .inr ⟨h'.trans h, Nat.le_trans hid' hid⟩

theorem id_eq_of_not_newer (h : newer r r' = false) (h' : newer r' r = false) : r.id = r'.id := by
  rw [not_newer_iff] at h h'
  rcases h with h | ⟨h, hid⟩
  · rcases h' with h' | ⟨h', -⟩
    · exact absurd h' (String.lt_asymm h)
    · exact absurd (h' ▸ h) (String.lt_irrefl _)
  · rcases h' with h' | ⟨-, hid'⟩
    · exact absurd (h ▸ h') (String.lt_irrefl _)
    · exact Nat.le_antisymm hid hid'

namespace Deployments

variable (d : Deployments) {app : Uuid}

theorem mem_select {p : Row → Bool} : r ∈ d.select p ↔ r ∈ d.rows ∧ p r = true := by
  rw [select, List.mem_mergeSort, List.mem_filter]

/-- A selection is listed from the newest row on. -/
theorem select_sorted (p : Row → Bool) : (d.select p).Pairwise fun r r' => newer r r' = true := by
  have hsorted : (d.select p).Pairwise fun r r' => (!newer r' r) = true := by
    refine List.pairwise_mergeSort (fun r r' r'' h h' => ?_) (fun r r' => ?_) _
    · rw [Bool.not_eq_true'] at h h' ⊢
      exact not_newer_trans h h'
    · cases hnewer : newer r' r with
      | false => rfl
      | true =>
        rw [newer_asymm hnewer]
        rfl
  have hkeyed : (d.select p).Pairwise fun r r' => r.id ≠ r'.id := by
    have hfilter : (d.rows.filter p).Pairwise fun r r' => r.id ≠ r'.id := d.keyed.filter p
    exact hfilter.perm (List.mergeSort_perm _ _).symm fun h => h.symm
  refine (hsorted.and hkeyed).imp fun {r r'} h => ?_
  obtain ⟨hle, hid⟩ := h
  rw [Bool.not_eq_true'] at hle
  cases hnewer : newer r r' with
  | true => rfl
  | false => exact absurd (id_eq_of_not_newer hnewer hle) hid

variable {before rest : List Row}

theorem select_after {row : Row} (h : d.history app = before ++ row :: rest) :
    (d.select fun r => r.appId = app && newer row r) = rest := by
  have hsorted := d.select_sorted (·.appId = app)
  have hafter : (d.history app).filter (newer row) = rest := by
    rw [h]
    refine filter_after newer_irrefl (fun _ _ => newer_asymm) ?_
    rw [← h]
    exact hsorted
  rw [← hafter]
  refine List.Perm.eq_of_pairwise ?_ (d.select_sorted _) (hsorted.filter _) ?_
  · intro r r' _ _ hnewer hnewer'
    rw [newer_asymm hnewer] at hnewer'
    cases hnewer'
  · have hleft : (d.select fun r => r.appId = app && newer row r).Perm
        (d.rows.filter fun r => r.appId = app && newer row r) := List.mergeSort_perm _ _
    have hright : ((d.history app).filter (newer row)).Perm
        ((d.rows.filter (·.appId = app)).filter (newer row)) :=
      (List.mergeSort_perm _ _).filter _
    rw [List.filter_filter] at hright
    have hsame : (d.rows.filter fun r => r.appId = app && newer row r) =
        d.rows.filter fun r => newer row r && decide (r.appId = app) :=
      List.filter_congr fun r _ => Bool.and_comm _ _
    rw [hsame] at hleft
    exact hleft.trans hright.symm

theorem find_cursor {row : Row} (h : row ∈ d.history app) :
    (d.rows.find? fun r => r.id = row.id && r.appId = app) = some row := by
  obtain ⟨hrow, happ⟩ := d.mem_select.mp h
  cases hfind : d.rows.find? fun r => r.id = row.id && r.appId = app with
  | none =>
    have hnone := List.find?_eq_none.mp hfind row hrow
    simp [of_decide_eq_true happ] at hnone
  | some r =>
    have hr := List.find?_some hfind
    simp only [Bool.and_eq_true, decide_eq_true_eq] at hr
    rw [eq_of_key_eq d.keyed (List.mem_of_find?_eq_some hfind) hrow hr.1]

/-- A page starts behind the last row of the page before it. -/
theorem listPage_eq (limit : Nat) (h : d.history app = before ++ rest) :
    d.listPage app limit (before.getLast?.map (·.id)) =
      .ok (pageOf (·.id) (clamped limit) rest) := by
  have hfetch : d.fetchPage app (clamped limit) (before.getLast?.map (·.id)) =
      .ok (rest.take (clamped limit + 1)) := by
    cases hlast : before.getLast? with
    | none =>
      obtain rfl := List.getLast?_eq_none_iff.mp hlast
      rw [Option.map_none, fetchPage, h, List.nil_append]
    | some row =>
      obtain ⟨front, rfl⟩ := List.getLast?_eq_some_iff.mp hlast
      have hsplit : d.history app = front ++ row :: rest := by
        rw [h, List.append_assoc, List.singleton_append]
      have hmem : row ∈ d.history app := by
        rw [hsplit]
        exact List.mem_append_right _ List.mem_cons_self
      rw [Option.map_some, fetchPage, d.find_cursor hmem]
      dsimp only
      rw [d.select_after hsplit]
  have htake : (rest.take (clamped limit + 1)).take (clamped limit) =
    rest.take (clamped limit) := by
    rw [List.take_take]
    congr 1
    omega
  have hmore : clamped limit < (rest.take (clamped limit + 1)).length ↔
      clamped limit < rest.length := by
    rw [List.length_take]
    omega
  rw [listPage, hfetch, pageOf, Except.map, htake]
  simp only [hmore]

/-- The listing of an app has every deployment that was recorded for it. -/
theorem recorded_mem_history (deeds : List Deed) {r : Row}
    (hr : r ∈ (play Tables.step Tables.empty deeds).deployments) :
    r ∈ (after deeds).history r.appId :=
  (mem_select _).mpr ⟨hr, decide_eq_true rfl⟩

end Deployments

/-- For every table, app and limit: the pages, read from cursor to cursor, are the listing of
the app cut into pieces, all of the limit's size but the last, and there is an end. -/
theorem history_read_by_pages (d : Deployments) (app : Uuid) (limit : Nat) :
    ∃ pages, follow (d.listPage app limit) ((d.history app).length + 1) none = some pages ∧
      pages.flatten = d.history app ∧
      (∀ page ∈ pages.dropLast, page.length = Deployments.clamped limit) ∧
      (d.history app).Perm (d.rows.filter (·.appId = app)) ∧
      (d.history app).Pairwise fun r r' => newer r r' = true := by
  have hlimit : 0 < Deployments.clamped limit := by
    unfold Deployments.clamped
    omega
  have hfetch : ∀ before rest, d.history app = before ++ rest → _ :=
    fun before rest hsplit => d.listPage_eq limit hsplit
  obtain ⟨pages, hpages, hflat, hfull⟩ := follow_listing hlimit hfetch
  exact ⟨pages, hpages, hflat, hfull, List.mergeSort_perm _ _, d.select_sorted _⟩

end SoloDock.Deploy
