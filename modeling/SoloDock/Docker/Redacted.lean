import SoloDock.Docker.Logs

/-!
# What redaction covers

The scan of `redact_once` goes on behind a pattern it has replaced. An occurrence that began
in the replaced bytes is not seen any more, and what it has beyond them is copied
(`overlap_copied`). `redaction_covers_iff` says of the occurrences in the input when that
happens; the scan finds the leftmost-longest ones (`MatchEnd`).
-/

namespace SoloDock.Docker.Logs

open Lib

/-- For each byte of the input whether the scan copies or replaces it; `skip` bytes of the
last pattern found are still to come. -/
def scan (patterns : List Bytes) : (skip : Nat) → Bytes → List (UInt8 × Origin)
  | _, [] => []
  | skip + 1, b :: rest => (b, .marker) :: scan patterns skip rest
  | 0, b :: rest =>
    match patterns.find? (·.isPrefixOf (b :: rest)) with
    | some pattern => (b, .marker) :: scan patterns (pattern.length - 1) rest
    | none => (b, .copied) :: scan patterns 0 rest

/-- The output of the same scan, without a limit. -/
def unlimited (patterns : List Bytes) : (skip : Nat) → Bytes → List (UInt8 × Origin)
  | _, [] => []
  | skip + 1, _ :: rest => unlimited patterns skip rest
  | 0, b :: rest =>
    match patterns.find? (·.isPrefixOf (b :: rest)) with
    | some pattern => markerIn 10 ++ unlimited patterns (pattern.length - 1) rest
    | none => (b, .copied) :: unlimited patterns 0 rest

/-! ## Occurrences -/

section Occurrences

variable (patterns : List Bytes) (input : Bytes)

/-- A pattern begins at `j`. -/
def Occurs (j : Nat) : Prop := ∃ p ∈ patterns, p <+: input.drop j

/-- The pattern begins at `j`, and none that is longer. -/
def Longest (j : Nat) (p : Bytes) : Prop :=
  p ∈ patterns ∧ p <+: input.drop j ∧ ∀ q ∈ patterns, q <+: input.drop j → q.length ≤ p.length

/-- Where the leftmost of the longest occurrences end that follow each other without overlap. -/
inductive MatchEnd : Nat → Prop where
  | start : MatchEnd 0
  | next {i j : Nat} {p : Bytes} (before : MatchEnd i) (later : i ≤ j)
      (leftmost : ∀ k, i ≤ k → k < j → ¬Occurs patterns input k)
      (longest : Longest patterns input j p) : MatchEnd (j + p.length)

/-- Of two occurrences that overlap the second ends with the first, or before. -/
def Nested : Prop :=
  ∀ j < input.length, ∀ k < input.length, ∀ p ∈ patterns, ∀ q ∈ patterns,
    p <+: input.drop j ∧ q <+: input.drop k ∧ j < k ∧ k < j + p.length →
      k + q.length ≤ j + p.length

instance : Decidable (Nested patterns input) :=
  inferInstanceAs (Decidable (∀ _ < _, ∀ _ < _, ∀ _ ∈ _, ∀ _ ∈ _, _ → _))

/-- The byte at `i` belongs to an occurrence of a pattern. -/
def inside (i : Nat) : Bool :=
  (List.range (i + 1)).any fun j =>
    patterns.any fun p => p.isPrefixOf (input.drop j) && decide (i < j + p.length)

/-- Each byte of the input, marked where it belongs to an occurrence. -/
def covered : List (UInt8 × Origin) :=
  input.zipIdx.map fun (b, i) => (b, if inside patterns input i then .marker else .copied)

end Occurrences

section Scan

variable {patterns : List Bytes} {input : Bytes} {skip i j : Nat}

/-! ## The output is that of the scan -/

theorem unlimited_skip (patterns : List Bytes) (skip : Nat) (input : Bytes) :
    unlimited patterns skip input = unlimited patterns 0 (input.drop skip) := by
  induction skip generalizing input with
  | zero => rfl
  | succ skip ih =>
    cases input with
    | nil => rfl
    | cons b rest => exact ih rest

/-- With enough room the limit plays no part. -/
theorem redactLoop_unlimited (hne : ∀ p ∈ patterns, p ≠ []) {rounds room : Nat}
    (hroom : (unlimited patterns 0 input).length ≤ room) (hrounds : room ≤ rounds) :
    redactLoop patterns rounds room input = unlimited patterns 0 input := by
  induction rounds generalizing room input with
  | zero =>
    obtain rfl : room = 0 := Nat.le_zero.mp hrounds
    exact (List.eq_nil_of_length_eq_zero (Nat.le_zero.mp hroom)).symm
  | succ rounds ih =>
    cases input with
    | nil => cases room <;> rfl
    | cons b rest =>
      rw [unlimited] at hroom ⊢
      split at hroom
      next pattern hfind =>
        have hmarker : (markerIn 10).length = 10 := markerIn_length 10
        rw [List.length_append, hmarker] at hroom
        obtain ⟨room, rfl⟩ : ∃ r, room = r + 1 := ⟨room - 1, by omega⟩
        have hfits : markerIn (room + 1) = markerIn 10 := by
          unfold markerIn
          rw [List.take_of_length_le (by rw [redacted_length]; omega)]
          rfl
        have hpos := List.length_pos_iff.mpr (hne pattern (List.mem_of_find?_eq_some hfind))
        have hdrop : (b :: rest).drop pattern.length = rest.drop (pattern.length - 1) := by
          rw [← Nat.sub_add_cancel hpos]
          rfl
        rw [redactLoop_some hfind, hfits, hmarker, hdrop]
        rw [unlimited_skip] at hroom ⊢
        rw [ih (by omega) (by omega)]
      next hfind =>
        rw [List.length_cons] at hroom
        obtain ⟨room, rfl⟩ : ∃ r, room = r + 1 := ⟨room - 1, by omega⟩
        rw [redactLoop_none hfind, ih (by omega) (by omega)]

/-- The markers put in aside, the output copies what the scan copies. -/
theorem unlimited_copied (patterns : List Bytes) (skip : Nat) (input : Bytes) :
    (unlimited patterns skip input).filter (·.2 = .copied) =
      (scan patterns skip input).filter (·.2 = .copied) := by
  have hmarker : (markerIn 10).filter (·.2 = .copied) = [] := by decide
  fun_induction scan patterns skip input with
  | case1 => rw [unlimited]
  | case2 skip b rest ih => simpa [unlimited] using ih
  | case3 b rest pattern hfind ih => simpa [unlimited, hfind, hmarker] using ih
  | case4 b rest hfind ih => simpa [unlimited, hfind] using ih

/-- The marking by matches has the bytes of the input. -/
theorem scan_bytes (patterns : List Bytes) (skip : Nat) (input : Bytes) :
    (scan patterns skip input).map Prod.fst = input := by
  fun_induction scan patterns skip input <;> simp_all

variable {b : UInt8}

/-! ## What it replaces -/

/-- A byte is inside when an occurrence starts at or before it and goes across it. -/
theorem inside_iff : inside patterns input i = true ↔
    ∃ j ≤ i, ∃ p ∈ patterns, p <+: input.drop j ∧ i < j + p.length := by
  simp [inside, Nat.lt_succ_iff]

theorem inside_of_marker (hne : ∀ p ∈ patterns, p ≠ [])
    (h : (scan patterns skip (input.drop j))[i]? = some (b, .marker)) :
    i < skip ∨ inside patterns input (j + i) = true := by
  generalize hrest : input.drop j = rest at h
  fun_induction scan patterns skip rest generalizing i j with
  | case1 => cases h
  | case2 skip c rest ih =>
    have hdrop : input.drop (j + 1) = rest := by rw [← List.drop_drop, hrest]; rfl
    cases i with
    | zero => exact .inl (Nat.succ_pos skip)
    | succ i => exact (ih hdrop h).imp Nat.succ_lt_succ (by rw [Nat.add_right_comm]; exact id)
  | case3 c rest pattern hfind ih =>
    have hdrop : input.drop (j + 1) = rest := by rw [← List.drop_drop, hrest]; rfl
    have hmem := List.mem_of_find?_eq_some hfind
    have hfound (k : Nat) (hk : k < pattern.length) : inside patterns input (j + k) = true :=
      inside_iff.mpr ⟨j, by omega, pattern, hmem, by simpa [hrest] using List.find?_some hfind,
        by omega⟩
    cases i with
    | zero => exact .inr (hfound 0 (List.length_pos_iff.mpr (hne _ hmem)))
    | succ i =>
      rcases ih hdrop h with hlt | hin
      · exact .inr (hfound _ (by omega))
      · exact .inr (by rw [Nat.add_right_comm] at hin; exact hin)
  | case4 c rest hfind ih =>
    have hdrop : input.drop (j + 1) = rest := by rw [← List.drop_drop, hrest]; rfl
    cases i with
    | zero => cases h
    | succ i => exact (ih hdrop h).imp nofun (by rw [Nat.add_right_comm]; exact id)

/-! ## The patterns are tried the longest first -/

theorem insertPattern_sorted {p : Bytes} {ps : List Bytes}
    (h : ps.Pairwise fun p q => q.length ≤ p.length) :
    (insertPattern p ps).Pairwise fun p q => q.length ≤ p.length := by
  induction ps with
  | nil => exact List.pairwise_singleton _ _
  | cons other rest ih =>
    obtain ⟨hother, hrest⟩ := List.pairwise_cons.mp h
    unfold insertPattern
    split
    next hle =>
      have hlen : other.length ≤ p.length := by
        rcases (by simpa [patternLe] using hle :
          other.length < p.length ∨ p.length = other.length ∧ p ≤ other) with hlt | ⟨heq, -⟩
        · exact Nat.le_of_lt hlt
        · exact Nat.le_of_eq heq.symm
      refine List.pairwise_cons.mpr ⟨fun q hq => ?_, h⟩
      rcases List.mem_cons.mp hq with rfl | hq
      · exact hlen
      · exact Nat.le_trans (hother q hq) hlen
    next hle =>
      have hlen : p.length ≤ other.length := by
        simp only [patternLe, Bool.or_eq_true, decide_eq_true_eq, not_or] at hle
        exact Nat.le_of_not_lt hle.1
      refine List.pairwise_cons.mpr ⟨fun q hq => ?_, ih hrest⟩
      rcases mem_insertPattern.mp hq with rfl | hq
      · exact hlen
      · exact hother q hq

theorem dedup_sublist : ∀ ps : List Bytes, (dedup ps).Sublist ps
  | [] => .slnil
  | [_] => .refl _
  | p :: q :: rest => by
    unfold dedup
    split
    · exact (dedup_sublist (q :: rest)).cons p
    · exact (dedup_sublist (q :: rest)).cons_cons p

/-- The longest pattern comes first. -/
theorem normalizePatterns_sorted (secrets : List Bytes) :
    (normalizePatterns secrets).Pairwise fun p q => q.length ≤ p.length := by
  refine List.Pairwise.sublist (dedup_sublist _) ?_
  induction secrets.flatMap secretPatterns with
  | nil => exact List.Pairwise.nil
  | cons p ps ih => exact insertPattern_sorted ih

/-- What the scan finds first is a longest occurrence. -/
theorem longest_of_find (hsorted : patterns.Pairwise fun p q => q.length ≤ p.length)
    {p : Bytes} (h : patterns.find? (·.isPrefixOf (input.drop j)) = some p) :
    Longest patterns input j p := by
  obtain ⟨hp, before, after, rfl, hbefore⟩ := List.find?_eq_some_iff_append.mp h
  refine ⟨by simp, by simpa using hp, fun q hq hprefix => ?_⟩
  rcases List.mem_append.mp hq with hq | hq
  · have hnot : q.isPrefixOf (input.drop j) = false := by simpa using hbefore q hq
    exact absurd (hnot.symm.trans (List.isPrefixOf_iff_prefix.mpr hprefix)) nofun
  · rcases List.mem_cons.mp hq with rfl | hq
    · exact Nat.le_refl _
    · exact (List.pairwise_cons.mp (List.pairwise_append.mp hsorted).2.1).1 q hq

theorem not_occurs_of_find (h : patterns.find? (·.isPrefixOf (input.drop j)) = none) :
    ¬Occurs patterns input j := by
  rintro ⟨p, hp, hprefix⟩
  exact absurd (List.isPrefixOf_iff_prefix.mpr hprefix)
    (by simpa using List.find?_eq_none.mp h p hp)

theorem find_of_not_occurs (h : ¬Occurs patterns input j) :
    patterns.find? (·.isPrefixOf (input.drop j)) = none :=
  List.find?_eq_none.mpr fun p hp hprefix => h ⟨p, hp, List.isPrefixOf_iff_prefix.mp hprefix⟩

/-! ## The scan and the matches -/

theorem scan_drop_skip (patterns : List Bytes) (skip : Nat) (input : Bytes) :
    (scan patterns skip input).drop skip = scan patterns 0 (input.drop skip) := by
  induction skip generalizing input with
  | zero => rfl
  | succ skip ih =>
    cases input with
    | nil => rfl
    | cons b rest => exact ih rest

theorem scan_drop_copied (h : ¬Occurs patterns input j) :
    (scan patterns 0 (input.drop j)).drop 1 = scan patterns 0 (input.drop (j + 1)) := by
  have hfind := find_of_not_occurs h
  rw [← List.drop_drop]
  generalize input.drop j = rest at hfind ⊢
  cases rest with
  | nil => rfl
  | cons b rest =>
    rw [scan, hfind]
    rfl

theorem scan_drop_match (hne : ∀ p ∈ patterns, p ≠ [])
    (hsorted : patterns.Pairwise fun p q => q.length ≤ p.length) {p : Bytes}
    (h : Longest patterns input j p) :
    (scan patterns 0 (input.drop j)).drop p.length =
      scan patterns 0 (input.drop (j + p.length)) := by
  obtain ⟨hp, hprefix, hmax⟩ := h
  cases hfind : patterns.find? (·.isPrefixOf (input.drop j)) with
  | none => exact absurd ⟨p, hp, hprefix⟩ (not_occurs_of_find hfind)
  | some q =>
    obtain ⟨hq, hqprefix, hqmax⟩ := longest_of_find hsorted hfind
    have hlen : q.length = p.length :=
      Nat.le_antisymm (hmax q hq hqprefix) (hqmax p hp hprefix)
    have hpos := List.length_pos_iff.mpr (hne p hp)
    rw [← List.drop_drop]
    generalize input.drop j = rest at hfind ⊢
    cases rest with
    | nil => simp [scan]
    | cons b rest =>
      rw [scan, hfind, ← Nat.sub_add_cancel hpos]
      dsimp only
      rw [hlen]
      exact scan_drop_skip patterns (p.length - 1) rest

section Matches

variable (hne : ∀ p ∈ patterns, p ≠ [])
  (hsorted : patterns.Pairwise fun p q => q.length ≤ p.length)

include hne hsorted

/-- The scan looks for the next occurrence where a match has ended. -/
theorem MatchEnd.scan_drop {e : Nat} (h : MatchEnd patterns input e) :
    (scan patterns 0 input).drop e = scan patterns 0 (input.drop e) := by
  induction h with
  | start => rfl
  | @next i j p before later leftmost longest ih =>
    have hupto : ∀ n, i + n ≤ j →
        (scan patterns 0 input).drop (i + n) = scan patterns 0 (input.drop (i + n)) := by
      intro n hn
      induction n with
      | zero => exact ih
      | succ n ihn =>
        rw [← Nat.add_assoc, ← List.drop_drop, ihn (by omega)]
        exact scan_drop_copied (leftmost _ (by omega) (by omega))
    have hj := hupto (j - i) (by omega)
    rw [Nat.add_sub_cancel' later] at hj
    rw [← List.drop_drop, hj, scan_drop_match hne hsorted longest]

/-- A byte is copied only where no pattern has begun since the last match ended. -/
theorem matchEnd_of_copied {n : Nat} (hreached : ∃ e, MatchEnd patterns input e ∧
      (e = n + skip ∨ skip = 0 ∧ e ≤ n ∧ ∀ k, e ≤ k → k < n → ¬Occurs patterns input k))
    (h : (scan patterns skip (input.drop n))[i]? = some (b, .copied)) :
    ∃ e, MatchEnd patterns input e ∧ e ≤ n + i ∧
      ∀ k, e ≤ k → k ≤ n + i → ¬Occurs patterns input k := by
  generalize hrest : input.drop n = rest at h
  fun_induction scan patterns skip rest generalizing i n with
  | case1 => cases h
  | case2 skip c rest ih =>
    have hdrop : input.drop (n + 1) = rest := by rw [← List.drop_drop, hrest]; rfl
    cases i with
    | zero => cases h
    | succ i =>
      obtain ⟨e, he, rfl | ⟨hskip, -⟩⟩ := hreached
      · rw [show n + (i + 1) = n + 1 + i by omega]
        exact ih ⟨_, he, .inl (by omega)⟩ hdrop h
      · cases hskip
  | case3 c rest pattern hfind ih =>
    have hdrop : input.drop (n + 1) = rest := by rw [← List.drop_drop, hrest]; rfl
    have hbegins : Longest patterns input n pattern := longest_of_find hsorted (hrest ▸ hfind)
    have hpos := List.length_pos_iff.mpr (hne pattern hbegins.1)
    have hend : MatchEnd patterns input (n + pattern.length) := by
      obtain ⟨e, he, rfl | ⟨-, hle, hnone⟩⟩ := hreached
      · exact .next he (Nat.le_refl _) (fun k hk hlt => absurd hk (by omega)) hbegins
      · exact .next he hle hnone hbegins
    cases i with
    | zero => cases h
    | succ i =>
      rw [show n + (i + 1) = n + 1 + i by omega]
      exact ih ⟨_, hend, .inl (by omega)⟩ hdrop h
  | case4 c rest hfind ih =>
    have hdrop : input.drop (n + 1) = rest := by rw [← List.drop_drop, hrest]; rfl
    have hnone : ¬Occurs patterns input n := not_occurs_of_find (hrest ▸ hfind)
    obtain ⟨e, he, hle, hbefore⟩ : ∃ e, MatchEnd patterns input e ∧ e ≤ n ∧
        ∀ k, e ≤ k → k < n + 1 → ¬Occurs patterns input k := by
      obtain ⟨e, he, heq | ⟨-, hle, hbefore⟩⟩ := hreached
      · refine ⟨e, he, Nat.le_of_eq heq, fun k hk hlt => ?_⟩
        obtain rfl : k = n := by omega
        exact hnone
      · refine ⟨e, he, hle, fun k hk hlt => ?_⟩
        rcases Nat.lt_or_eq_of_le (Nat.le_of_lt_succ hlt) with hlt | rfl
        · exact hbefore k hk hlt
        · exact hnone
    cases i with
    | zero => exact ⟨e, he, hle, fun k hk hlt => hbefore k hk (Nat.lt_succ_of_le hlt)⟩
    | succ i =>
      rw [show n + (i + 1) = n + 1 + i by omega]
      exact ih ⟨e, he, .inr ⟨rfl, Nat.le_succ_of_le hle, hbefore⟩⟩ hdrop h

end Matches

/-- Where occurrences are nested no match cuts one short. -/
theorem Nested.within (h : Nested patterns input) {e : Nat} (he : MatchEnd patterns input e) :
    ∀ j < e, ∀ p ∈ patterns, p <+: input.drop j → j + p.length ≤ e := by
  induction he with
  | start => exact fun j hj => absurd hj (Nat.not_lt_zero j)
  | @next i j p before later leftmost longest ih =>
    intro k hk q hq hprefix
    obtain ⟨hp, hbegins, hmax⟩ := longest
    have hfits := hbegins.length_le
    have hqfits := hprefix.length_le
    rw [List.length_drop] at hfits hqfits
    rcases Nat.lt_trichotomy k j with hlt | rfl | hlt
    · rcases Nat.lt_or_ge k i with hki | hki
      · exact Nat.le_trans (ih k hki q hq hprefix) (by omega)
      · exact absurd ⟨q, hq, hprefix⟩ (leftmost k hki hlt)
    · exact Nat.add_le_add_left (hmax q hq hprefix) k
    · exact h j (by omega) k (by omega) p hp q hq ⟨hbegins, hprefix, hlt, hk⟩

/-! ## Two markings of one input -/

/-- The marking by occurrences has the bytes of the input. -/
theorem covered_bytes (patterns : List Bytes) (input : Bytes) :
    (covered patterns input).map Prod.fst = input := by
  simp [covered, List.map_map, Function.comp_def]

/-- It copies the bytes that lie in no occurrence. -/
theorem covered_copied : (covered patterns input)[i]? = some (b, .copied) ↔
    input[i]? = some b ∧ inside patterns input i = false := by
  simp only [covered, List.getElem?_map, List.getElem?_zipIdx, Nat.zero_add]
  cases input[i]? with
  | none => simp
  | some c =>
    cases hin : inside patterns input i <;> simp [hin]

/-- A byte in no occurrence is copied. -/
theorem scan_copied (hne : ∀ p ∈ patterns, p ≠ []) (hget : input[i]? = some b)
    (hout : inside patterns input i = false) :
    (scan patterns 0 input)[i]? = some (b, .copied) := by
  rw [← scan_bytes patterns 0 input, List.getElem?_map] at hget
  obtain ⟨⟨c, origin⟩, hscan, rfl⟩ := Option.map_eq_some_iff.mp hget
  cases origin with
  | copied => exact hscan
  | marker =>
    rcases inside_of_marker (j := 0) hne hscan with hlt | hin
    · cases hlt
    · rw [Nat.zero_add, hout] at hin
      cases hin

/-- Where a match has ended and no pattern begins the scan copies. -/
theorem scan_copied_at {e : Nat}
    (hdrop : (scan patterns 0 input).drop e = scan patterns 0 (input.drop e))
    (hfree : ¬Occurs patterns input e) (hlt : e < input.length) :
    (scan patterns 0 input)[e]? = some (input[e], .copied) := by
  have hhead : (scan patterns 0 input)[e]? = ((scan patterns 0 input).drop e)[0]? := by
    rw [List.getElem?_drop, Nat.add_zero]
  have hfind := find_of_not_occurs hfree
  rw [List.drop_eq_getElem_cons hlt] at hdrop hfind
  rw [hhead, hdrop, scan, hfind]
  rfl

/-- With less copied in `t` than in `s` the copied bytes agree only where the markings do. -/
theorem copied_eq_iff {s t : List (UInt8 × Origin)} (hbytes : s.map Prod.fst = t.map Prod.fst)
    (h : ∀ (i : Nat) (b : UInt8), t[i]? = some (b, .copied) → s[i]? = some (b, .copied)) :
    (t.filter (·.2 = .copied)).Sublist (s.filter (·.2 = .copied)) ∧
      (s.filter (·.2 = .copied) = t.filter (·.2 = .copied) ↔
        ∀ (i : Nat) (b : UInt8), s[i]? = some (b, .copied) → t[i]? = some (b, .copied)) := by
  induction s generalizing t with
  | nil =>
    obtain rfl : t = [] := by simpa using hbytes.symm
    simp
  | cons x s ih =>
    cases t with
    | nil => cases hbytes
    | cons y t =>
      obtain ⟨hhead, htail⟩ := List.cons.inj hbytes
      obtain ⟨hsublist, hiff⟩ := ih htail fun i b => h (i + 1) b
      have hshift :
          (∀ (i : Nat) (b : UInt8), (x :: s)[i]? = some (b, .copied) →
            (y :: t)[i]? = some (b, .copied)) ↔
          (∀ b, x = (b, .copied) → y = (b, .copied)) ∧
            ∀ (i : Nat) (b : UInt8), s[i]? = some (b, .copied) → t[i]? = some (b, .copied) := by
        refine ⟨fun hall => ⟨fun b => by simpa using hall 0 b, fun i b => hall (i + 1) b⟩, ?_⟩
        rintro ⟨hfirst, hrest⟩ (_ | i) b
        · simpa using hfirst b
        · exact hrest i b
      rw [hshift, ← hiff]
      obtain ⟨c, origin⟩ := x
      obtain ⟨c', origin'⟩ := y
      obtain rfl : c = c' := hhead
      cases origin' with
      | copied =>
        cases Option.some.inj (h 0 c rfl)
        simpa using hsublist
      | marker =>
        cases origin with
        | marker => simpa using hsublist
        | copied =>
          refine ⟨by simpa using hsublist.cons _, fun heq => ?_, fun hall => ?_⟩
          · have hlen := congrArg List.length heq
            have hle := hsublist.length_le
            simp at hlen
            omega
          · cases hall.1 c rfl

end Scan

/-- Within the limit the output keeps, in order, every byte that belongs to no occurrence of a
pattern. It keeps no other byte exactly when no occurrence goes across the end of a match, of the
leftmost-longest ones, that is not followed by an occurrence at once; in particular when
overlapping occurrences are nested. -/
theorem redaction_covers_iff (secrets : List Bytes) (input : Bytes) (limit : Nat)
    (hlimit : (unlimited (normalizePatterns secrets) 0 input).length ≤ limit) :
    let patterns := normalizePatterns secrets
    let kept := (redactOnce input patterns limit).filter (·.2 = .copied)
    let outside := (covered patterns input).filter (·.2 = .copied)
    outside.Sublist kept ∧ (kept.map Prod.fst).Sublist input ∧
    (kept = outside ↔ ∀ e, MatchEnd patterns input e → ¬Occurs patterns input e →
      ∀ j < e, ∀ p ∈ patterns, p <+: input.drop j → j + p.length ≤ e) ∧
    (Nested patterns input → kept = outside) := by
  intro patterns kept outside
  have hne : ∀ p ∈ patterns, p ≠ [] := fun p hp => (mem_normalizePatterns.mp hp).1
  have hsorted := normalizePatterns_sorted secrets
  have hkept : kept = (scan patterns 0 input).filter (·.2 = .copied) := by
    show (redactOnce _ _ _).filter _ = _
    rw [redactOnce, redactLoop_unlimited hne hlimit (Nat.le_refl limit), unlimited_copied]
  have hbytes := scan_bytes patterns 0 input
  -- the two markings have the same bytes, and what lies in no occurrence is copied
  obtain ⟨hsublist, hiff⟩ := copied_eq_iff (s := scan patterns 0 input)
    (t := covered patterns input)
    (by rw [hbytes, covered_bytes]) fun i b hb => by
      obtain ⟨hget, hout⟩ := covered_copied.mp hb
      exact scan_copied hne hget hout
  have hcovers : kept = outside ↔ ∀ e, MatchEnd patterns input e → ¬Occurs patterns input e →
      ∀ j < e, ∀ p ∈ patterns, p <+: input.drop j → j + p.length ≤ e := by
    rw [hkept]
    refine hiff.trans ⟨fun hall e he hfree j hj p hp hprefix => Nat.le_of_not_lt fun hlt => ?_,
      fun hends i b hcopied => ?_⟩
    · -- the byte at the end of the match is copied, and the occurrence goes across it
      have hfits := hprefix.length_le
      rw [List.length_drop] at hfits
      have hcopied := scan_copied_at (he.scan_drop hne hsorted) hfree (by omega : e < input.length)
      have hout := (covered_copied.mp (hall e _ hcopied)).2
      rw [inside_iff.mpr ⟨j, by omega, p, hp, hprefix, hlt⟩] at hout
      cases hout
    · obtain ⟨e, he, hle, hnone⟩ := matchEnd_of_copied (n := 0) hne hsorted
        ⟨0, .start, .inl rfl⟩ hcopied
      rw [Nat.zero_add] at hle hnone
      refine covered_copied.mpr ⟨?_, ?_⟩
      · rw [← hbytes, List.getElem?_map, hcopied]
        rfl
      · refine Bool.not_eq_true _ ▸ fun hin => ?_
        obtain ⟨j, hj, p, hp, hprefix, hlt⟩ := inside_iff.mp hin
        have hbefore : j < e := Nat.lt_of_not_le fun hej => hnone j hej hj ⟨p, hp, hprefix⟩
        exact absurd (hends e he (hnone e (Nat.le_refl _) hle) j hbefore p hp hprefix) (by omega)
  refine ⟨hkept ▸ hsublist, ?_, hcovers, fun hnested => hcovers.mpr fun e he _ => hnested.within he⟩
  have hsub :=
    (List.filter_sublist (p := (·.2 = .copied)) (l := scan patterns 0 input)).map Prod.fst
  rw [hkept]
  rwa [hbytes] at hsub

/-- With the secrets `ab` and `bc`, of `abc` the `c` is copied, which belongs to the second. -/
theorem overlap_copied :
    let patterns := normalizePatterns [[97, 98], [98, 99]]
    (redactOnce [97, 98, 99] patterns maxRedactedBytes).filter (·.2 = .copied) = [(99, .copied)] ∧
      (covered patterns [97, 98, 99]).filter (·.2 = .copied) = [] :=
  ⟨by decide, by decide⟩

/-- Of `abcdb` with the secrets `abc` and `b` the `d` alone is kept. -/
theorem nested_secrets_covered :
    let patterns := normalizePatterns [[97, 98, 99], [98]]
    Nested patterns [97, 98, 99, 100, 98] ∧
      (redactOnce [97, 98, 99, 100, 98] patterns maxRedactedBytes).filter (·.2 = .copied) =
        [(100, .copied)] := by
  have hnested : Nested (normalizePatterns [[97, 98, 99], [98]]) [97, 98, 99, 100, 98] := by decide
  have h := redaction_covers_iff [[97, 98, 99], [98]] [97, 98, 99, 100, 98] maxRedactedBytes
    (by decide)
  exact ⟨hnested, h.2.2.2 hnested⟩

end SoloDock.Docker.Logs
