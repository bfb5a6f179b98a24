import SoloDock.Images.Listing
import SoloDock.Lib.Keyed

/-!
# A plan spares what is in use

`build_scoped_plan`, run against any tables, any files and any answers of Docker. If it
makes a plan, the history of cleaned releases was read to its end and the containers were
listed completely, and no image of the plan has a digest in common with anything that is
still in use (`planned_images_unreferenced`).

The history comes in pages that continue after the last key. The table is in the strict
order of its keys, so each page is the next part of it (`filter_after`), and the pages end
when the table does.
-/

namespace SoloDock.Images

open Lib Docker Registry Cleanup Lib.Prog Lib.World
open List (append_assoc mem_append mem_cons mem_filter mem_mergeSort mem_singleton not_mem_nil)

/-! ## Specification -/

/-- The digests of a record. -/
def recordDigests (r : CleanedReleaseRecord) : List String := [r.localImageId, r.manifestDigest]

/-- The digests of a planned image. -/
def ImageCandidate.digests (c : ImageCandidate) : List String :=
  c.imageId.value :: recordDigests c.identity

/-- The operation has an item that is planned or started. -/
def Site.Unfinished (w : Site) (o : ImageOperation) : Prop :=
  o ∈ w.operations ∧ ∃ i ∈ w.items, i.operation = o.id ∧ i.status.terminal = false

/-- The cleanup that a row of the history belongs to. -/
def Facts.operationOf (f : Facts) (row : CleanedRow) : Option CleanupOperation :=
  f.operations.find? fun o => o.id == row.cleanupOperation

/-- The digest `d` is in use: by a container, as Docker reported in `listing`; by a release
on disk or in a tombstone; by a cleaned release that has not been retired; or by an item of
another image cleanup that has not finished. -/
inductive InUse (w : Site) (resuming : Option Uuid) (listing : List Record) (d : String) :
    Prop where
  | container (e : Record) (he : e ∈ listing) (hd : d ∈ reported e)
  | release (inventory : ArtifactInventory) (hinventory : w.facts.inventory = .ok inventory)
      (r : CleanedReleaseRecord) (hr : r ∈ inventory.releases) (hd : d ∈ recordDigests r)
  | buried (releases : List CleanedReleaseRecord)
    (hreleases : w.facts.tombstoneReleases = .ok releases)
      (r : CleanedReleaseRecord) (hr : r ∈ releases) (hd : d ∈ recordDigests r)
  | unretired (row : CleanedRow) (hrow : row ∈ w.facts.cleaned.rows) (tombstones : List Uuid)
      (htombstones : w.facts.tombstones = .ok tombstones)
      (hretired : ∀ o, w.facts.operationOf row = some o → retired tombstones o = false)
      (hd : d ∈ recordDigests row.record)
  | operation (o : ImageOperation) (ho : w.Unfinished o) (hother : resuming ≠ some o.id)
      (c : ImageCandidate) (hc : c ∈ o.plan) (hd : d ∈ c.digests)

/-- What a plan was made from is complete. -/
structure Informed (w : Site) (listing : List Record) : Prop where
  inventory : ∃ inventory, w.facts.inventory = .ok inventory
  tombstones : ∃ tombstones, w.facts.tombstones = .ok tombstones
  tombstoneReleases : ∃ releases, w.facts.tombstoneReleases = .ok releases
  history : ∀ row ∈ w.facts.cleaned.rows, ∃ o, w.facts.operationOf row = some o
  containers : ∃ containers, (∃ before, ⟨before, .allContainers, .ok containers⟩ ∈ listing)
    ∧ Identified listing containers

/-! ## The history -/

theorem readAs_ok {readable : Bool} {value : Except CleanupError α} {a : α}
    (h : readAs readable value = .ok a) : value = .ok a := by
  cases readable with
  | true => exact h
  | false => cases h

theorem precedes_asymm (j k : Cursor) (h : Cursor.precedes (some j) k = true) :
    Cursor.precedes (some k) j = false := by
  have hpairs : ∀ a b c d : Nat, a < c ∨ a = c ∧ b < d → ¬c < a ∧ (c ≠ a ∨ ¬d < b) := by omega
  simp only [Cursor.precedes, Bool.or_eq_true, Bool.and_eq_true, decide_eq_true_eq, beq_iff_eq,
    Bool.or_eq_false_iff, Bool.and_eq_false_iff, decide_eq_false_iff_not,
      beq_eq_false_iff_ne] at h ⊢
  exact hpairs _ _ _ _ h

theorem joined_sorted (f : Facts) :
    f.joined.Pairwise fun a b => Cursor.precedes (some a.row.key) b.row.key = true := by
  refine f.cleaned.sorted.filterMap _ fun r s hlt a ha b hb => ?_
  obtain ⟨o, -, rfl⟩ := Option.map_eq_some_iff.mp ha
  obtain ⟨o', -, rfl⟩ := Option.map_eq_some_iff.mp hb
  exact hlt

/-- The rows that were read went where they belong. -/
structure Took (tombstones : List Uuid) (rows : List JoinedRow) (s s' : Scan) : Prop where
  scanned : s'.scanned = s.scanned + rows.length
  kept : s.retained ⊆ s'.retained
  placed : ∀ j ∈ rows, retired tombstones j.operation = false → j.row.record ∈ s'.retained

theorem took_nil (tombstones : List Uuid) (s : Scan) : Took tombstones [] s s :=
  ⟨rfl, List.Subset.refl _, fun _ hj => (not_mem_nil hj).elim⟩

variable {tombstones : List Uuid}

theorem Took.append {xs ys : List JoinedRow} {s s' s'' : Scan}
    (h : Took tombstones xs s s') (h' : Took tombstones ys s' s'') :
    Took tombstones (xs ++ ys) s s'' := by
  refine ⟨?_, fun r hr => h'.kept (h.kept hr), fun j hj hretired => ?_⟩
  · rw [h'.scanned, h.scanned, List.length_append, Nat.add_assoc]
  · rcases mem_append.mp hj with hj | hj
    · exact h'.kept (h.placed j hj hretired)
    · exact h'.placed j hj hretired

theorem took_place (s : Scan) (tombstones : List Uuid) (app : Option Uuid) (j : JoinedRow) :
    Took tombstones [j] s (s.place tombstones app j) := by
  unfold Scan.place
  split
  next hretired =>
    have hnone : ∀ i ∈ [j], retired tombstones i.operation = false →
        i.row.record ∈ s.retained := by
      intro i hi hfalse
      rw [mem_singleton.mp hi, hretired] at hfalse
      cases hfalse
    split <;> exact ⟨rfl, List.Subset.refl _, hnone⟩
  · refine ⟨rfl, List.subset_append_left _ _, fun i hi _ => ?_⟩
    rw [mem_singleton.mp hi]
    exact List.mem_append_right _ (mem_singleton.mpr rfl)

variable {retained : List CleanedReleaseRecord} {t : List Record}

section Runs

variable {w w' : Site} {app : Option Uuid} {s s' : Scan}

theorem scanRow_runs {j : JoinedRow}
    (h : siteWorld.Runs (scanRow tombstones app s j) w t (.ok s') w') :
    w' = w ∧ s' = s.place tombstones app j := by
  obtain ⟨i, -, h⟩ := runs_accept_bind h
  obtain ⟨plan, -, h⟩ := runs_orStop_bind h
  obtain ⟨-, h⟩ := runs_ensure_bind h
  split at h
  next ordinal _ =>
    obtain ⟨c, u, -, h⟩ := runs_ask_bind h
    obtain ⟨item, -, h⟩ := runs_accept_bind h
    obtain ⟨-, h⟩ := runs_ensure_bind h
    obtain ⟨-, heq, hw⟩ := runs_pure h
    exact ⟨hw, heq.symm⟩
  · cases h.2.1

theorem scanRows_runs {rows : List JoinedRow}
    (h : siteWorld.Runs (scanRows tombstones app s rows) w t (.ok s') w') :
    w' = w ∧ Took tombstones rows s s' ∧ ∀ xs x, rows = xs ++ [x] → s'.cursor = some x.row.key := by
  induction rows generalizing s w t with
  | nil =>
    obtain ⟨-, rfl, hw⟩ := runs_pure h
    refine ⟨hw, took_nil tombstones s, fun xs x heq => ?_⟩
    exact absurd heq.symm (List.append_ne_nil_of_right_ne_nil _ (List.cons_ne_nil _ _))
  | cons j rest ih =>
    rw [scanRows] at h
    obtain ⟨middle, v, t1, t2, hrow, hrest, -⟩ := runs_bind h
    obtain ⟨hv, rfl⟩ := scanRow_runs hrow
    obtain ⟨hw, htook, hcursor⟩ := ih hrest
    refine ⟨hw.trans hv, (took_place s tombstones app j).append htook, fun xs x heq => ?_⟩
    cases xs with
    | nil =>
      -- the last row is this one, and the rest leaves the cursor alone
      cases heq
      obtain ⟨-, rfl, -⟩ := runs_pure hrest
      unfold Scan.place
      split
      · split <;> rfl
      · rfl
    | cons y ys =>
      obtain ⟨-, heq⟩ := List.cons.inj heq
      exact hcursor ys x heq

/-- The rows `rest` are those after the cursor, and all of them are read. -/
theorem scanPages_runs {pages : Nat} {before rest : List JoinedRow}
    (hsplit : w.facts.joined = before ++ rest)
    (hrest : (w.facts.joined.filter fun j => Cursor.precedes s.cursor j.row.key) = rest)
    (hpages : rest.length < pages)
    (h : siteWorld.Runs (scanPages tombstones app pages s) w t (.ok s') w') :
    w' = w ∧ Took tombstones rest s s' := by
  induction pages generalizing s w t before rest with
  | zero => omega
  | succ pages ih =>
    rw [scanPages] at h
    obtain ⟨readable, u, -, h⟩ := runs_ask_bind h
    obtain ⟨rows, hrows, h⟩ := runs_accept_bind h
    have hpage : rest.take Facts.pageSize = rows := by
      rw [← hrest]
      exact Except.ok.inj (readAs_ok hrows)
    split at h
    next hempty =>
      obtain ⟨-, rfl, hw⟩ := runs_pure h
      have hnil : rest = [] := by
        rw [List.isEmpty_iff.mp hempty, List.take_eq_nil_iff] at hpage
        exact hpage.resolve_left (by decide)
      rw [hnil]
      exact ⟨hw, took_nil tombstones s⟩
    next hnonempty =>
      obtain ⟨middle, v, t1, t2, hpageRun, hmore, -⟩ := runs_bind h
      obtain ⟨hv, htook, hcursor⟩ := scanRows_runs hpageRun
      obtain ⟨xs, x, hlast⟩ : ∃ xs x, rows = xs ++ [x] := by
        rcases List.eq_nil_or_concat rows with hnil | ⟨xs, x, heq⟩
        · exact absurd (List.isEmpty_iff.mpr hnil) hnonempty
        · exact ⟨xs, x, heq.trans (List.concat_eq_append ..)⟩
      have hcut : rest = rows ++ rest.drop Facts.pageSize := by
        rw [← hpage]
        exact (List.take_append_drop _ _).symm
      have hjoined : w.facts.joined = (before ++ xs) ++ x :: rest.drop Facts.pageSize := by
        have hafterLast : rest = xs ++ x :: rest.drop Facts.pageSize := by
          rw [hlast, append_assoc] at hcut
          exact hcut
        rw [append_assoc, ← hafterLast]
        exact hsplit
      -- after the last row of the page comes what the page has left
      have hafter : (w.facts.joined.filter fun j => Cursor.precedes middle.cursor j.row.key)
          = rest.drop Facts.pageSize := by
        rw [hcursor xs x hlast, hjoined]
        have hsorted := joined_sorted w.facts
        rw [hjoined] at hsorted
        exact filter_after (fun a => by simp [Cursor.precedes])
          (fun a b => precedes_asymm a.row.key b.row.key) hsorted
      have hshorter : (rest.drop Facts.pageSize).length < pages := by
        have hlen : rest.length = rows.length + (rest.drop Facts.pageSize).length := by
          rw [← List.length_append, ← hcut]
        rw [hlast, List.length_append, List.length_singleton] at hlen
        omega
      obtain rfl := hv
      have hsplit' : v.facts.joined = (before ++ rows) ++ rest.drop Facts.pageSize := by
        rw [hsplit, append_assoc, ← hcut]
      obtain ⟨hw, htook'⟩ := ih hsplit' hafter hshorter hmore
      refine ⟨hw, ?_⟩
      rw [hcut]
      exact htook.append htook'

/-- The whole table was read: no row is lost in the join, and none that is not retired. -/
theorem scanCleaned_runs {scan : Scan}
    (h : siteWorld.Runs (scanCleaned tombstones app retained) w t (.ok scan) w') :
    w' = w ∧ retained ⊆ scan.retained ∧ ∀ row ∈ w.facts.cleaned.rows,
      ∃ o, w.facts.operationOf row = some o
        ∧ (retired tombstones o = false → row.record ∈ scan.retained) := by
  obtain ⟨readable, u, -, h⟩ := runs_ask_bind h
  obtain ⟨count, hcount, h⟩ := runs_accept_bind h
  obtain ⟨s, v, t1, t2, hpages, h, -⟩ := runs_bind h
  obtain ⟨hscanned, h⟩ := runs_ensure_bind h
  obtain ⟨readable', u', -, h⟩ := runs_ask_bind h
  obtain ⟨_, -, h⟩ := runs_accept_bind h
  obtain ⟨-, rfl, hw⟩ := runs_pure h
  have hcount : w.facts.cleaned.rows.length = count := Except.ok.inj (readAs_ok hcount)
  have hjoined : w.facts.joined.length ≤ count := hcount ▸ List.length_filterMap_le ..
  have hall : w.facts.joined = [] ++ w.facts.joined := rfl
  obtain ⟨hv, htook⟩ := scanPages_runs hall (List.filter_eq_self.mpr fun _ _ => rfl)
    (Nat.lt_succ_of_le hjoined) hpages
  refine ⟨hw.trans hv, htook.kept, fun row hrow => ?_⟩
  have hlength : w.facts.joined.length = w.facts.cleaned.rows.length := by
    have hscanned : s.scanned = count := by simpa using hscanned
    rw [hcount, ← hscanned, htook.scanned]
    exact (Nat.zero_add _).symm
  have hsome := List.filterMap_length_eq_length.mp hlength row hrow
  obtain ⟨j, hj⟩ := Option.isSome_iff_exists.mp hsome
  obtain ⟨o, ho, rfl⟩ := Option.map_eq_some_iff.mp hj
  exact ⟨o, ho, htook.placed _ (List.mem_filterMap.mpr ⟨row, hrow, hj⟩)⟩

end Runs

/-! ## The candidates -/

variable {r : CleanedReleaseRecord} {c : ImageCandidate}

theorem overlapsAny_false (h : overlapsAny r retained = .ok false) :
    ∀ other ∈ retained, overlaps r other = .ok false := by
  induction retained with
  | nil => exact fun _ hmem => (not_mem_nil hmem).elim
  | cons other rest ih =>
    obtain ⟨here, hhere, h⟩ := bind_eq_ok.mp h
    obtain ⟨there, hthere, h⟩ := bind_eq_ok.mp h
    obtain ⟨rfl, rfl⟩ : here = false ∧ there = false := by
      simpa only [Bool.or_eq_false_iff] using pure_eq_ok.mp h
    exact List.forall_mem_cons.mpr ⟨hhere, ih hthere⟩

theorem not_mem_of_unmatched {i : ImageIdentity} {value : String}
    (hi : identity r = .ok i) (h : i.matchesEngineImageId (some value) = false) :
    value ∉ recordDigests r := by
  intro hmem
  obtain ⟨hm, hc, hmanifest, hlocal⟩ := identity_ok hi
  have hmatch : i.matchesEngineImageId (some value) = true := by
    show (isDigest value && (decide (value = i.configDigest) || decide (value = i.manifestDigest)))
      = true
    rw [hm, hc]
    rcases mem_cons.mp hmem with rfl | hmem
    · simp [hlocal]
    · rw [mem_singleton.mp hmem]
      simp [hmanifest]
  rw [h] at hmatch
  cases hmatch

theorem overlaps_false {other : CleanedReleaseRecord} (h : overlaps r other = .ok false) :
    ∀ d ∈ recordDigests other, d ∉ recordDigests r := by
  obtain ⟨i, hi, h⟩ := bind_eq_ok.mp h
  obtain ⟨_, -, h⟩ := bind_eq_ok.mp h
  obtain ⟨hlocal, hmanifest⟩ : _ = false ∧ _ = false := by
    simpa only [Bool.or_eq_false_iff] using pure_eq_ok.mp h
  intro d hd
  rcases mem_cons.mp hd with rfl | hd
  · exact not_mem_of_unmatched hi hlocal
  · rw [mem_singleton.mp hd]
    exact not_mem_of_unmatched hi hmanifest

/-- The candidate shares no digest with a reference or a retained release. -/
def Spares (references : List String) (retained : List CleanedReleaseRecord) (c : ImageCandidate) :
    Prop :=
  ∀ d ∈ c.digests, d ∉ references ∧ ∀ r ∈ retained, d ∉ recordDigests r

theorem mem_record_of_mem {d : String} (h : d ∈ c.digests) : d ∈ recordDigests c.identity := by
  rcases mem_cons.mp h with rfl | h
  · rcases c.known with heq | heq
    · exact heq ▸ List.mem_cons_self
    · exact heq ▸ List.mem_cons_of_mem _ List.mem_cons_self
  · exact h

variable {references : List String}

theorem spares_of_unprotected
    (h : isProtected c.identity c.imageId.value references retained = .ok false) :
    Spares references retained c := by
  obtain ⟨i, hi, h⟩ := bind_eq_ok.mp h
  obtain ⟨kept, hkept, h⟩ := bind_eq_ok.mp h
  obtain ⟨hused, rfl⟩ : _ = false ∧ kept = false := by
    simpa only [Bool.or_eq_false_iff] using pure_eq_ok.mp h
  intro d hd
  have hd := mem_record_of_mem hd
  constructor
  · intro href
    have hunmatched := List.any_eq_false.mp hused d href
    simp only [Bool.or_eq_true, not_or, Bool.not_eq_true] at hunmatched
    exact not_mem_of_unmatched hi hunmatched.1 hd
  · exact fun r hr hmem => overlaps_false (overlapsAny_false hkept r hr) d hmem hd

section Runs

variable {w w' : Site} {s s' : Choosing}

theorem considerRecord_runs (hs : ∀ c ∈ s.candidates, Spares references retained c)
    (h : siteWorld.Runs (considerRecord references retained s r) w t (.ok s') w') :
    ∀ c ∈ s'.candidates, Spares references retained c := by
  obtain ⟨_, -, h⟩ := runs_accept_bind h
  obtain ⟨⟨observed, cache⟩, v, t1, t2, -, h, -⟩ := runs_bind h
  cases observed with
  | none =>
    obtain ⟨-, rfl, -⟩ := runs_pure h
    exact hs
  | some observed =>
    dsimp only at h
    split at h
    next hmatches =>
      obtain ⟨inUse, hinUse, h⟩ := runs_accept_bind h
      cases inUse with
      | true =>
        obtain ⟨-, rfl, -⟩ := runs_pure h
        exact hs
      | false =>
        obtain ⟨-, rfl, -⟩ := runs_pure h
        have hnew : Spares references retained (candidateOf r observed hmatches) :=
          spares_of_unprotected hinUse
        intro c hc
        simp only [orInsert] at hc
        split at hc
        · exact hs c hc
        · rcases mem_append.mp hc with hc | hc
          · exact hs c hc
          · rw [mem_singleton.mp hc]
            exact hnew
    · cases h.2.1

theorem considerRecords_runs {records : List CleanedReleaseRecord}
    (hs : ∀ c ∈ s.candidates, Spares references retained c)
    (h : siteWorld.Runs (considerRecords references retained s records) w t (.ok s') w') :
    ∀ c ∈ s'.candidates, Spares references retained c := by
  induction records generalizing s w t with
  | nil =>
    obtain ⟨-, rfl, -⟩ := runs_pure h
    exact hs
  | cons r rest ih =>
    rw [considerRecords] at h
    obtain ⟨middle, v, t1, t2, hrecord, hrest, -⟩ := runs_bind h
    exact ih (considerRecord_runs hs hrecord) hrest

theorem schedule_runs {resuming app : Option Uuid} {candidates chosen : List ImageCandidate}
    (h : siteWorld.Runs (schedule resuming app candidates) w t (.ok chosen) w') :
    chosen ⊆ candidates := by
  cases app with
  | none =>
    obtain ⟨-, rfl, -⟩ := runs_pure h
    exact fun c hc => List.mem_of_mem_take (mem_mergeSort.mp hc)
  | some app =>
    obtain ⟨answer, u, -, h⟩ := runs_ask_bind h
    obtain ⟨attempts, -, h⟩ := runs_accept_bind h
    obtain ⟨-, rfl, -⟩ := runs_pure h
    exact fun c hc => mem_mergeSort.mp (List.mem_of_mem_take (mem_mergeSort.mp hc))

end Runs

/-! ## Which calls are made when -/

/-- The store and the tables are read, and Docker is not asked. -/
def Call.offline (e : Call) : Prop :=
  match e with
  | .allContainers => False
  | .inspect _ => False
  | _ => e.reads = true

theorem scanRow_offline (tombstones : List Uuid) (app : Option Uuid) (s : Scan) (j : JoinedRow) :
    (scanRow tombstones app s j).Only Call.offline := by
  refine only_orElse_bind fun _ => only_bind (only_orStop ..)
    fun plan => only_bind (only_ensure ..) fun _ => ?_
  split
  · exact only_call rfl fun _ => only_orElse_bind fun _ => only_bind (only_ensure ..)
        fun _ => trivial
  · trivial

theorem scanRows_offline (tombstones : List Uuid) (app : Option Uuid) (rows : List JoinedRow)
    (s : Scan) : (scanRows tombstones app s rows).Only Call.offline := by
  induction rows generalizing s with
  | nil => trivial
  | cons j rest ih => exact only_bind (scanRow_offline ..) fun s => ih s

theorem scanPages_offline (tombstones : List Uuid) (app : Option Uuid) (pages : Nat) (s : Scan) :
    (scanPages tombstones app pages s).Only Call.offline := by
  induction pages generalizing s with
  | zero => trivial
  | succ pages ih =>
    refine only_call rfl fun _ => only_orElse_bind fun rows => ?_
    split
    · trivial
    · exact only_bind (scanRows_offline ..) fun s => ih s

theorem scanCleaned_offline (tombstones : List Uuid) (app : Option Uuid)
    (retained : List CleanedReleaseRecord) :
    (scanCleaned tombstones app retained).Only Call.offline :=
  only_call rfl fun _ =>
    only_orElse_bind fun _ => only_bind (scanPages_offline ..) fun _ =>
      only_bind (only_ensure ..) fun _ =>
        only_call rfl fun _ =>
          only_orElse_bind fun _ => trivial

/-- An image is looked at, or the former attempts. -/
def Call.looks (e : Call) : Prop :=
  match e with
  | .inspect _ => True
  | .formerAttempts _ => True
  | _ => False

theorem cachedInspect_looks (cache : List (ExactImageId × Option CleanupImage))
    (id : ExactImageId) : (cachedInspect cache id).Only Call.looks := by
  unfold cachedInspect
  split
  · trivial
  · exact only_call trivial fun _ => only_orElse_bind fun _ => trivial

theorem inspectRecord_looks (cache : List (ExactImageId × Option CleanupImage))
    (r : CleanedReleaseRecord) : (inspectRecord cache r).Only Call.looks := by
  refine only_orElse_bind fun _ => only_bind (cachedInspect_looks ..) fun (observed, cache) => ?_
  show Prog.Only _ (if _ then _ else _)
  split
  · exact only_orElse_bind fun _ => cachedInspect_looks ..
  · trivial

theorem considerRecord_looks (references : List String) (retained : List CleanedReleaseRecord)
    (s : Choosing) (r : CleanedReleaseRecord) :
    (considerRecord references retained s r).Only Call.looks := by
  refine only_orElse_bind fun _ => only_bind (inspectRecord_looks ..) fun (observed, cache) => ?_
  cases observed with
  | none => trivial
  | some observed =>
    dsimp only
    split
    · refine only_orElse_bind fun inUse => ?_
      split <;> trivial
    · trivial

theorem considerRecords_looks (references : List String)
    (retained records : List CleanedReleaseRecord) (s : Choosing) :
    (considerRecords references retained s records).Only Call.looks := by
  induction records generalizing s with
  | nil => trivial
  | cons r rest ih => exact only_bind (considerRecord_looks ..) fun s => ih s

theorem schedule_looks (resuming app : Option Uuid) (candidates : List ImageCandidate) :
    (schedule resuming app candidates).Only Call.looks := by
  cases app with
  | none => trivial
  | some app =>
    exact only_call trivial fun _ => only_orElse_bind fun _ => trivial

/-! ## The plan -/

variable {w : Site} {resuming : Option Uuid}

theorem mem_otherItems {o : ImageOperation}
    (ho : w.Unfinished o) (hother : resuming ≠ some o.id) {c : ImageCandidate} (hc : c ∈ o.plan) :
    c.identity ∈ otherItems resuming w.unfinished := by
  obtain ⟨hmem, i, hi, heq, hopen⟩ := ho
  have hunfinished : o ∈ w.unfinished := by
    refine mem_filter.mpr ⟨hmem, List.any_eq_true.mpr ⟨i, hi, ?_⟩⟩
    simp [heq, hopen]
  refine List.mem_flatMap.mpr ⟨o, mem_filter.mpr ⟨hunfinished, ?_⟩, List.mem_map.mpr ⟨c, hc, rfl⟩⟩
  simpa using hother

theorem not_inUse {listing : List Record} {inventory : ArtifactInventory}
    {buried : List CleanedReleaseRecord}
    (hinventory : w.facts.inventory = .ok inventory)
    (htombstones : w.facts.tombstones = .ok tombstones)
    (hburied : w.facts.tombstoneReleases = .ok buried)
    (hreferences : ∀ e ∈ listing, reported e ⊆ references)
    (hretained : inventory.releases ++ otherItems resuming w.unfinished ++ buried ⊆ retained)
    (hhistory : ∀ row ∈ w.facts.cleaned.rows, ∃ o, w.facts.operationOf row = some o
      ∧ (retired tombstones o = false → row.record ∈ retained))
    (hc : Spares references retained c) {d : String} (hd : d ∈ c.digests) :
    ¬InUse w resuming listing d := by
  obtain ⟨hfree, hspared⟩ := hc d hd
  intro h
  cases h with
  | container e he hmem => exact hfree (hreferences e he hmem)
  | release inventory' hinventory' r hr hmem =>
    cases hinventory.symm.trans hinventory'
    exact hspared r (hretained (List.mem_append_left _ (List.mem_append_left _ hr))) hmem
  | buried releases hreleases r hr hmem =>
    cases hburied.symm.trans hreleases
    exact hspared r (hretained (List.mem_append_right _ hr)) hmem
  | unretired row hrow tombstones' htombstones' hopen hmem =>
    cases htombstones.symm.trans htombstones'
    obtain ⟨o, ho, hkept⟩ := hhistory row hrow
    exact hspared row.record (hkept (hopen o ho)) hmem
  | operation o ho hother c' hc' hmem =>
    have hitem := hretained (List.mem_append_left _
      (List.mem_append_right _ (mem_otherItems ho hother hc')))
    exact hspared c'.identity hitem (mem_record_of_mem hmem)

/-- What a run that makes a plan has read, and that no image of the plan is in use. -/
theorem buildScopedPlan_runs {app : Option Uuid} {w' : Site} {plan : ImagePlan}
    (h : siteWorld.Runs (buildScopedPlan resuming app) w t (.ok plan) w') :
    ∃ chosen listing read, t = chosen ++ listing ++ read ∧ (∀ e ∈ read, e.call.offline)
      ∧ (∀ e ∈ chosen, e.call.looks) ∧ Informed w listing
      ∧ ∀ c ∈ plan.candidates, ∀ d ∈ c.digests, ¬InUse w resuming listing d := by
  obtain ⟨c1, u1, ht1, h⟩ := runs_ask_bind h
  obtain ⟨_, -, h⟩ := runs_accept_bind h
  obtain ⟨c2, u2, ht2, h⟩ := runs_ask_bind h
  obtain ⟨inventory, hinventory, h⟩ := runs_accept_bind h
  obtain ⟨c3, u3, ht3, h⟩ := runs_ask_bind h
  obtain ⟨tombstones, htombstones, h⟩ := runs_accept_bind h
  obtain ⟨c4, u4, ht4, h⟩ := runs_ask_bind h
  obtain ⟨operations, hoperations, h⟩ := runs_accept_bind h
  obtain ⟨c5, u5, ht5, h⟩ := runs_ask_bind h
  obtain ⟨buried, hburied, h⟩ := runs_accept_bind h
  obtain ⟨scan, v, scanning, u6, hscan, h, ht6⟩ := runs_bind h
  obtain ⟨⟨containers, references⟩, v', listing, u7, hlisting, h, ht7⟩ := runs_bind h
  obtain ⟨chosen, v'', considering, u8, hchosen, h, ht8⟩ := runs_bind h
  obtain ⟨candidates, v''', scheduling, u9, hschedule, h, ht9⟩ := runs_bind h
  obtain ⟨rfl, rfl, -⟩ := runs_pure h
  -- what the store and the tables answered
  have hinventory : w.facts.inventory = .ok inventory := readAs_ok hinventory
  have htombstones : w.facts.tombstones = .ok tombstones := readAs_ok htombstones
  have hoperations : w.unfinished = operations := Except.ok.inj (readAs_ok hoperations)
  have hburied : w.facts.tombstoneReleases = .ok buried := readAs_ok hburied
  obtain ⟨hv, hretained, hhistory⟩ := scanCleaned_runs hscan
  obtain ⟨-, hlisted, hidentified, hreferences⟩ := listContainers_runs hlisting
  have hspares := considerRecords_runs (fun _ hc => (not_mem_nil hc).elim) hchosen
  have hreading : ∃ reading, t = u5 ++ reading ∧ ∀ e ∈ reading, e.call.offline := by
    rw [ht4, ht5] at ht3
    rw [ht2, ht3] at ht1
    simp only [append_assoc, List.cons_append, List.nil_append] at ht1
    refine ⟨_, ht1, ?_⟩
    simp only [mem_cons, not_mem_nil, or_false, forall_eq_or_imp, forall_eq]
    exact ⟨rfl, rfl, rfl, rfl, rfl⟩
  obtain ⟨reading, ht, hoffline⟩ := hreading
  refine ⟨scheduling ++ considering, listing, scanning ++ reading, ?_, ?_, ?_,
    ⟨⟨_, hinventory⟩, ⟨_, htombstones⟩, ⟨_, hburied⟩, ?_, _, hlisted, hidentified⟩, ?_⟩
  · rw [ht, ht6, ht7, ht8, ht9]
    simp only [append_assoc, List.nil_append]
  · intro e he
    rcases mem_append.mp he with he | he
    · exact hscan.calls (scanCleaned_offline ..) e he
    · exact hoffline e he
  · intro e he
    rcases mem_append.mp he with he | he
    · exact hschedule.calls (schedule_looks ..) e he
    · exact hchosen.calls (considerRecords_looks ..) e he
  · exact fun row hrow => (hhistory row hrow).imp fun o ho => ho.1
  · intro c hc d hd
    have hmem := mem_mergeSort.mp (schedule_runs hschedule hc)
    exact not_inUse hinventory htombstones hburied hreferences (hoperations ▸ hretained) hhistory
      (hspares c (mem_filter.mp hmem).1) hd

/-- Whatever the tables, the files and Docker's answers are: when a plan is made, what it
was made from is complete, and none of its images has a digest in use. `listing` is the
part of the run that asks Docker about the containers. -/
theorem planned_images_unreferenced (resuming app : Option Uuid) (w : Site)
    (o : siteWorld.traced.Script) (plan : ImagePlan)
    (h : (siteWorld.traced.exec o 0 (buildScopedPlan resuming app) (w, [])).1 = .ok plan) :
    ∃ chosen listing read,
      (siteWorld.traced.exec o 0 (buildScopedPlan resuming app) (w, [])).2.2
          = chosen ++ listing ++ read
        ∧ (∀ e ∈ read, e.call.offline) ∧ (∀ e ∈ chosen, e.call.looks) ∧ Informed w listing
        ∧ ∀ c ∈ plan.candidates, ∀ d ∈ c.digests, ¬InUse w resuming listing d := by
  obtain ⟨t, hlog, hruns⟩ := siteWorld.exec_runs o 0 (buildScopedPlan resuming app) (w, [])
  rw [h] at hruns
  rw [hlog, List.append_nil]
  exact buildScopedPlan_runs hruns

/-! A site with one cleaned release, whose image is still there, and one container of
another image. -/

def sampleDigest (digit : Char) : String :=
  String.ofList (digestAlgorithm ++ List.replicate 64 digit)

def sampleRecord : CleanedReleaseRecord where
  manifestDigest := sampleDigest 'a'
  localImageId := sampleDigest 'b'
  platformOs := "linux"
  platformArchitecture := "amd64"
  platformVariant := none

def sampleImage (id : String) (repoDigests : List String) : CleanupImage :=
  ⟨⟨id, none, repoDigests, "linux", "amd64", none⟩, false, 7, []⟩

def sampleCleanup : CleanupPlan := ⟨[⟨.release 1 2 4, 0, none, some sampleRecord⟩], [], 0⟩

def sampleFacts : Facts where
  inventory := .ok ⟨⟨[], [], 0⟩, [1], []⟩
  tombstones := .ok []
  tombstoneReleases := .ok []
  cleaned := ⟨[⟨1, 2, 3, sampleRecord⟩], List.pairwise_singleton _ _⟩
  operations := [⟨3, some sampleCleanup, some sampleCleanup, .completed, false⟩]
  items := [⟨3, 0, some 1, 2, "release", .detached⟩]

def sampleContainer : ContainerRecord where
  id := String.ofList (List.replicate 64 'd')
  labels := []
  runtime := ⟨.running, .none, none, none, none⟩
  configuredImageRef := none
  imageId := some (sampleDigest 'c')
  manifestDescriptor := none

def sampleFound (id : ExactImageId) : Option CleanupImage :=
  if id.value = sampleDigest 'b' then
    some (sampleImage (sampleDigest 'b') ["registry/app@" ++ sampleDigest 'a'])
  else if id.value = sampleDigest 'c' then some (sampleImage (sampleDigest 'c') [])
  else none

def sampleScript : siteWorld.traced.Script := fun _ e =>
  match e with
  | .allContainers => .ok [sampleContainer]
  | .inspect id => .ok (sampleFound id)
  | e => quiet e

def sampleCandidate : ImageCandidate where
  imageId := ⟨sampleDigest 'b', by decide +kernel⟩
  identity := sampleRecord
  reportedSizeBytes := 7
  repoDigests := ["registry/app@" ++ sampleDigest 'a']
  repoTags := []
  known := .inl rfl

/-- A release with these digits in its digests. -/
def recordOf (manifest image : Char) : CleanedReleaseRecord :=
  { sampleRecord with manifestDigest := sampleDigest manifest, localImageId := sampleDigest image }

/-- A candidate of another cleanup. -/
def otherCandidate : ImageCandidate where
  imageId := ⟨sampleDigest '6', by decide +kernel⟩
  identity := recordOf '5' '6'
  reportedSizeBytes := 7
  repoDigests := []
  repoTags := []
  known := .inl rfl

/-- Beside the cleaned release there are one on disk, one in a tombstone, and one whose image
another cleanup is to remove. -/
def busySite : Site :=
  { Site.empty { sampleFacts with
      inventory := .ok ⟨⟨[], [], 0⟩, [1], [recordOf '1' '2']⟩
      tombstones := .ok [9]
      tombstoneReleases := .ok [recordOf '3' '4'] } 10 with
    operations := [⟨8, none, [otherCandidate]⟩]
    items := [⟨8, 0, otherCandidate.imageId, .planned⟩] }

def samplePlan : ImagePlan where
  candidates := [sampleCandidate]
  protectedCount := 0
  facts := ⟨⟨[], [], 0⟩, [sampleRecord], [recordOf '1' '2', recordOf '5' '6', recordOf '3' '4'],
    [(sampleContainer.id, sampleContainer.imageId, none)], [sampleCandidate]⟩

/-- The image of the cleaned release is planned. -/
theorem cleaned_image_planned :
    sampleCandidate ∈ samplePlan.candidates
      ∧ ∃ chosen listing read,
        (siteWorld.traced.exec sampleScript 0 (buildScopedPlan none none) (busySite, [])).2.2
            = chosen ++ listing ++ read
          ∧ (∀ e ∈ read, e.call.offline) ∧ (∀ e ∈ chosen, e.call.looks)
          ∧ Informed busySite listing
          ∧ ∀ c ∈ samplePlan.candidates, ∀ d ∈ c.digests, ¬InUse busySite none listing d :=
  ⟨mem_singleton.mpr rfl,
    planned_images_unreferenced none none busySite sampleScript samplePlan
      (ok_of_toOption (by decide +kernel))⟩

end SoloDock.Images
