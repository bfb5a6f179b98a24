import SoloDock.Lib.Time

/-!
# How stored times compare

A stored time is compared as text, character by character. Up to the second the text is a
sequence of numbers in fixed widths, from the year down, and compares like the instant
(`rfc3339_lt_iff`). That rests on the calendar: a later day has a later date
(`dateOfDay_before`). The years of an era of 400 are told apart by where they start
(`yearOfEra_bounds`), and the days of a year by the month and day counted from March.

The fraction has no fixed width, and its end is compared with the digits of the other
(`fraction_lt_iff`).
-/

namespace SoloDock.Lib

open List (cons_append cons_lt_cons_iff length replicate)

/-! ## Lists in lexicographic order -/

variable {x y : List Char} {c : Char} {width n m d : Nat} {day : Int} {a : Date}

/-- Behind starts of the same length the rest decides only if the starts are the same. -/
theorem append_lt_append_iff {p q : List Char} (hlen : p.length = q.length) :
    p ++ x < q ++ y ↔ p < q ∨ p = q ∧ x < y := by
  induction p generalizing q with
  | nil =>
    obtain rfl : q = [] := List.length_eq_zero_iff.mp hlen.symm
    simp
  | cons c p ih =>
    cases q with
    | nil => simp at hlen
    | cons d q =>
      have hrest := ih (q := q) (by simpa using hlen)
      rw [cons_append, cons_append, cons_lt_cons_iff, cons_lt_cons_iff, hrest, List.cons.injEq]
      constructor
      · rintro (h | ⟨h, h' | ⟨h', hx⟩⟩)
        · exact .inl (.inl h)
        · exact .inl (.inr ⟨h, h'⟩)
        · exact .inr ⟨⟨h, h'⟩, hx⟩
      · rintro ((h | ⟨h, h'⟩) | ⟨⟨h, h'⟩, hx⟩)
        · exact .inl h
        · exact .inr ⟨h, .inl h'⟩
        · exact .inr ⟨h, .inr ⟨h', hx⟩⟩

theorem cons_lt_cons_same : c :: x < c :: y ↔ x < y := by
  rw [cons_lt_cons_iff]
  simp

/-- Nothing of the same length comes before a row of the smallest character. -/
theorem not_lt_replicate (hx : ∀ d ∈ x, ¬d < c) : ¬x < replicate x.length c := by
  induction x with
  | nil => simp
  | cons d x ih =>
    have hd := hx d List.mem_cons_self
    have hrest := ih fun e he => hx e (List.mem_cons_of_mem _ he)
    rw [List.length_cons, List.replicate_succ, cons_lt_cons_iff]
    rintro (h | ⟨-, h⟩)
    · exact hd h
    · exact hrest h

/-! ## Decimal digits -/

theorem padded_length (width n : Nat) : (padded width n).length = width := by
  induction width generalizing n with
  | zero => rfl
  | succ width ih => simp [padded, ih]

theorem digit_lt_iff : ∀ r < 10, ∀ s < 10, Char.ofNat (48 + r) < Char.ofNat (48 + s) ↔ r < s := by
  decide

theorem digit_inj : ∀ r < 10, ∀ s < 10, Char.ofNat (48 + r) = Char.ofNat (48 + s) ↔ r = s := by
  decide

theorem digit_range : ∀ r < 10, ¬Char.ofNat (48 + r) < '0' ∧ Char.ofNat (48 + r) < 'Z' := by
  decide

theorem padded_digits (hc : c ∈ padded width n) : ¬c < '0' ∧ c < 'Z' := by
  induction width generalizing n with
  | zero => simp [padded] at hc
  | succ width ih =>
    rw [padded, List.mem_append, List.mem_singleton] at hc
    rcases hc with hc | rfl
    · exact ih hc
    · exact digit_range _ (Nat.mod_lt _ (by decide))

theorem padded_inj (hm : m < 10 ^ width) (hn : n < 10 ^ width) :
    padded width m = padded width n ↔ m = n := by
  induction width generalizing m n with
  | zero =>
    rw [Nat.pow_zero] at hm hn
    have heq : m = n := by omega
    simp [heq]
  | succ width ih =>
    rw [Nat.pow_succ] at hm hn
    constructor
    · intro h
      have hlen : (padded width (m / 10)).length = (padded width (n / 10)).length := by
        rw [padded_length, padded_length]
      obtain ⟨hfront, hlast⟩ := List.append_inj h hlen
      have htens := (ih (by omega) (by omega)).mp hfront
      have hones := (digit_inj _ (Nat.mod_lt m (by decide)) _ (Nat.mod_lt n (by decide))).mp
        (List.cons.inj hlast).1
      omega
    · rintro rfl
      rfl

theorem padded_lt_iff (hm : m < 10 ^ width) (hn : n < 10 ^ width) :
    padded width m < padded width n ↔ m < n := by
  induction width generalizing m n with
  | zero =>
    rw [Nat.pow_zero] at hm hn
    have heq : ¬m < n := by omega
    simp [padded, heq]
  | succ width ih =>
    rw [Nat.pow_succ] at hm hn
    have hlen : (padded width (m / 10)).length = (padded width (n / 10)).length := by
      rw [padded_length, padded_length]
    have hones := digit_lt_iff _ (Nat.mod_lt m (by decide)) _ (Nat.mod_lt n (by decide))
    rw [padded, padded, append_lt_append_iff hlen, ih (by omega) (by omega),
      padded_inj (by omega) (by omega), cons_lt_cons_iff, hones]
    simp only [List.not_lt_nil, and_false, or_false]
    omega

/-- A number in a fixed width decides before what comes after it. -/
theorem padded_append_lt_iff (hm : m < 10 ^ width) (hn : n < 10 ^ width) :
    padded width m ++ x < padded width n ++ y ↔ m < n ∨ m = n ∧ x < y := by
  have hlen : (padded width m).length = (padded width n).length := by
    rw [padded_length, padded_length]
  rw [append_lt_append_iff hlen, padded_lt_iff hm hn, padded_inj hm hn]

/-! ## Dates -/

/-- The date is an earlier one. -/
def Date.Before (a b : Date) : Prop :=
  a.year < b.year ∨ a.year = b.year ∧ (a.month < b.month ∨ a.month = b.month ∧ a.day < b.day)

/-- The year of an era that a day of it lies in, as `dateOfDay` computes it. -/
def yearOfEra (day : Nat) : Nat := (day - day / 1460 + day / 36524 - day / 146096) / 365

/-- The day of its era that a year starts with. -/
def yearStart (year : Nat) : Nat := 365 * year + year / 4 - year / 100

theorem yearOfEra_mono {d' : Nat} (h : d ≤ d') : yearOfEra d ≤ yearOfEra d' := by
  induction d' with
  | zero =>
    obtain rfl : d = 0 := by omega
    exact Nat.le_refl _
  | succ d' ih =>
    by_cases hd : d = d' + 1
    · exact Nat.le_of_eq (congrArg yearOfEra hd)
    · have hstep : yearOfEra d' ≤ yearOfEra (d' + 1) := by
        unfold yearOfEra
        exact Nat.div_le_div_right (by omega)
      exact Nat.le_trans (ih (by omega)) hstep

/-- The first and the last day of each year, checked one by one. -/
theorem yearOfEra_ends :
    ∀ y < 400, yearOfEra (yearStart y) = y ∧ (0 < y → yearOfEra (yearStart y - 1) = y - 1) := by
  decide +kernel

theorem yearOfEra_lt (hd : d < 146097) : yearOfEra d < 400 := by
  have hlast : yearOfEra 146096 = 399 := by decide
  have hmono := yearOfEra_mono (show d ≤ 146096 by omega)
  omega

/-- A day lies between the start of its year and the start of the next. -/
theorem yearOfEra_bounds (hd : d < 146097) :
    yearStart (yearOfEra d) ≤ d ∧ (yearOfEra d < 399 → d < yearStart (yearOfEra d + 1)) := by
  have hlt := yearOfEra_lt hd
  constructor
  · rcases Nat.lt_or_ge d (yearStart (yearOfEra d)) with hbefore | hge
    · -- the day before the start lies in the year before
      have hpos : 0 < yearOfEra d := by
        rcases Nat.eq_zero_or_pos (yearOfEra d) with h0 | hpos
        · rw [h0] at hbefore
          exact absurd hbefore (Nat.not_lt_zero d)
        · exact hpos
      have hprev := (yearOfEra_ends _ hlt).2 hpos
      have hmono := yearOfEra_mono (show d ≤ yearStart (yearOfEra d) - 1 by omega)
      omega
    · exact hge
  · intro h399
    rcases Nat.lt_or_ge d (yearStart (yearOfEra d + 1)) with hlt' | hafter
    · exact hlt'
    · have hnext := (yearOfEra_ends (yearOfEra d + 1) (by omega)).1
      have hmono := yearOfEra_mono hafter
      omega

/-- The year counted from March, and the day of it. -/
def marchYear (z : Nat) : Nat := z / 146097 * 400 + yearOfEra (z % 146097)

def marchDay (z : Nat) : Nat := z % 146097 - yearStart (yearOfEra (z % 146097))

theorem marchDay_lt (z : Nat) : marchDay z < 366 := by
  have hera : z % 146097 < 146097 := Nat.mod_lt _ (by decide)
  have hlt := yearOfEra_lt hera
  obtain ⟨hle, hnext⟩ := yearOfEra_bounds hera
  unfold marchDay
  unfold yearStart at hle hnext ⊢
  by_cases h399 : yearOfEra (z % 146097) < 399
  · have := hnext h399
    omega
  · have : yearOfEra (z % 146097) = 399 := by omega
    omega

theorem march_lt {z z' : Nat} (h : z < z') :
    marchYear z < marchYear z' ∨ marchYear z = marchYear z' ∧ marchDay z < marchDay z' := by
  have hera : z % 146097 < 146097 := Nat.mod_lt _ (by decide)
  have hera' : z' % 146097 < 146097 := Nat.mod_lt _ (by decide)
  have hyear := yearOfEra_lt hera
  unfold marchYear
  by_cases hsame : z / 146097 = z' / 146097
  · have hday : z % 146097 < z' % 146097 := by omega
    have hmono := yearOfEra_mono (Nat.le_of_lt hday)
    by_cases heq : yearOfEra (z % 146097) = yearOfEra (z' % 146097)
    · have hle := (yearOfEra_bounds hera).1
      refine .inr ⟨by omega, ?_⟩
      unfold marchDay
      rw [heq] at hle ⊢
      omega
    · exact .inl (by omega)
  · exact .inl (by omega)

/-- The month of a day of a year that starts in March. -/
def monthOf (day : Nat) : Nat :=
  if (5 * day + 2) / 153 < 10 then (5 * day + 2) / 153 + 3 else (5 * day + 2) / 153 - 9

def dayOf (day : Nat) : Nat := day - (153 * ((5 * day + 2) / 153) + 2) / 5 + 1

theorem dateOfDay_eq (h : dateOfDay day = some a) : ∃ z : Nat, (z : Int) = day + 865565 ∧
      a = ⟨(marchYear z : Int) - 400 + (if monthOf (marchDay z) ≤ 2 then 1 else 0),
        monthOf (marchDay z), dayOf (marchDay z)⟩ := by
  unfold dateOfDay at h
  by_cases hneg : day + 865565 < 0
  · rw [if_pos hneg] at h
    cases h
  · rw [if_neg hneg] at h
    exact ⟨(day + 865565).toNat, by omega, (Option.some.inj h).symm⟩

/-- Later days have later dates. -/
theorem dateOfDay_before {day' : Int} {b : Date} (ha : dateOfDay day = some a)
    (hb : dateOfDay day' = some b) (h : day < day') : a.Before b := by
  obtain ⟨z, hz, rfl⟩ := dateOfDay_eq ha
  obtain ⟨z', hz', rfl⟩ := dateOfDay_eq hb
  have hmarch := march_lt (show z < z' by omega)
  have hp := marchDay_lt z
  have hq := marchDay_lt z'
  generalize marchDay z = p at hmarch hp
  generalize marchDay z' = q at hmarch hq
  unfold Date.Before
  dsimp only
  rcases hmarch with hyear | ⟨hyear, hday⟩
  · -- the months of a new year are the last of the year from March
    by_cases hp2 : monthOf p ≤ 2
    · by_cases hq2 : monthOf q ≤ 2
      · rw [if_pos hp2, if_pos hq2]
        exact .inl (by omega)
      · rw [if_pos hp2, if_neg hq2]
        omega
    · rw [if_neg hp2]
      split <;> omega
  · rw [hyear]
    unfold monthOf dayOf
    split <;> split <;> split <;> split <;> omega

theorem dateOfDay_fields (h : dateOfDay day = some a) : a.month < 100 ∧ a.day < 100 := by
  obtain ⟨z, -, rfl⟩ := dateOfDay_eq h
  have hp := marchDay_lt z
  generalize marchDay z = p at hp
  refine ⟨?_, ?_⟩
  · show monthOf p < 100
    unfold monthOf
    split <;> omega
  · show dayOf p < 100
    unfold dayOf
    omega

/-! ## The text up to the second -/

theorem rfc3339_eq {t : Instant} {text : String} (h : rfc3339 t = some text) :
    ∃ date, ∃ second : Nat, dateOfDay (t.unixTimestamp / 86400) = some date ∧
      0 ≤ date.year ∧ date.year ≤ 9999 ∧ (second : Int) = t.unixTimestamp % 86400 ∧
      text.toList = padded 4 date.year.toNat ++ '-' :: (padded 2 date.month ++ '-' ::
        (padded 2 date.day ++ 'T' :: (padded 2 (second / 3600) ++ ':' ::
        (padded 2 (second / 60 % 60) ++ ':' :: (padded 2 (second % 60) ++
        (fractionText t.nanosecond ++ ['Z'])))))) := by
  unfold rfc3339 at h
  cases hdate : dateOfDay (t.unixTimestamp / 86400) with
  | none =>
    rw [hdate] at h
    cases h
  | some date =>
    rw [hdate] at h
    dsimp only at h
    by_cases hyear : 0 ≤ date.year ∧ date.year ≤ 9999
    · rw [if_pos hyear] at h
      refine ⟨date, (t.unixTimestamp % 86400).toNat, rfl, hyear.1, hyear.2, by omega, ?_⟩
      rw [← Option.some.inj h, String.toList_ofList]
      simp only [List.append_assoc, cons_append]
    · rw [if_neg hyear] at h
      cases h

/-- Hours, minutes and seconds compare like the second of the day. -/
theorem clock_lt_iff {s s' : Nat} {P : Prop} :
    (s / 3600 < s' / 3600 ∨ s / 3600 = s' / 3600 ∧ (s / 60 % 60 < s' / 60 % 60 ∨
      s / 60 % 60 = s' / 60 % 60 ∧ (s % 60 < s' % 60 ∨ s % 60 = s' % 60 ∧ P))) ↔
      s < s' ∨ s = s' ∧ P := by
  by_cases hP : P
  · simp only [hP, and_true]
    omega
  · simp only [hP, and_false, or_false]
    omega

/-- Texts compare like the seconds of the instants, and in the same second like what
follows. -/
theorem rfc3339_lt_iff {a b : Instant} {s t : String} (ha : rfc3339 a = some s)
    (hb : rfc3339 b = some t) :
    s < t ↔ a.unixTimestamp < b.unixTimestamp ∨ a.unixTimestamp = b.unixTimestamp ∧
      fractionText a.nanosecond ++ ['Z'] < fractionText b.nanosecond ++ ['Z'] := by
  obtain ⟨date, second, hdate, hyear, hyear', hsecond, hs⟩ := rfc3339_eq ha
  obtain ⟨date', second', hdate', hyear1, hyear₁', hsecond', ht⟩ := rfc3339_eq hb
  obtain ⟨hmonth, hday⟩ := dateOfDay_fields hdate
  obtain ⟨hmonth', hday'⟩ := dateOfDay_fields hdate'
  have hmod : a.unixTimestamp % 86400 < 86400 := Int.emod_lt_of_pos _ (by decide)
  have hmod' : b.unixTimestamp % 86400 < 86400 := Int.emod_lt_of_pos _ (by decide)
  rw [String.lt_iff, hs, ht, padded_append_lt_iff (by omega) (by omega), cons_lt_cons_same,
    padded_append_lt_iff (by omega) (by omega), cons_lt_cons_same,
    padded_append_lt_iff (by omega) (by omega), cons_lt_cons_same,
    padded_append_lt_iff (by omega) (by omega), cons_lt_cons_same,
    padded_append_lt_iff (by omega) (by omega), cons_lt_cons_same,
    padded_append_lt_iff (by omega) (by omega)]
  generalize (fractionText a.nanosecond ++ ['Z'] < fractionText b.nanosecond ++ ['Z']) = later
  rcases Int.lt_trichotomy (a.unixTimestamp / 86400) (b.unixTimestamp / 86400) with
    hlt | heq | hgt
  · have hbefore := dateOfDay_before hdate hdate' hlt
    unfold Date.Before at hbefore
    omega
  · rw [heq, hdate'] at hdate
    cases hdate
    have hseconds : second < second' ↔ a.unixTimestamp < b.unixTimestamp := by omega
    have hsame : second = second' ↔ a.unixTimestamp = b.unixTimestamp := by omega
    rw [clock_lt_iff, hseconds, hsame]
    simp
  · have hbefore := dateOfDay_before hdate' hdate hgt
    unfold Date.Before at hbefore
    omega

/-! ## The fraction -/

/-- The digits of a fraction, without trailing zeros. -/
def fractionDigits (nanosecond : Nat) : List Char :=
  ((padded 9 nanosecond).reverse.dropWhile (· = '0')).reverse

theorem fractionDigits_append (n : Nat) :
    ∃ k, padded 9 n = fractionDigits n ++ replicate k '0' := by
  have hzeros : ∀ x ∈ (padded 9 n).reverse.takeWhile (· = '0'), x = '0' := by
    intro x hx
    simpa using List.all_eq_true.mp List.all_takeWhile x hx
  refine ⟨((padded 9 n).reverse.takeWhile (· = '0')).length, ?_⟩
  have hsplit := List.takeWhile_append_dropWhile (p := fun c : Char => decide (c = '0'))
    (l := (padded 9 n).reverse)
  rw [List.eq_replicate_of_mem hzeros] at hsplit
  have hback := congrArg List.reverse hsplit
  rw [List.reverse_append, List.reverse_reverse, List.reverse_replicate] at hback
  exact hback.symm

theorem fractionDigits_lt (hc : c ∈ fractionDigits n) : ¬c < '0' ∧ c < 'Z' := by
  obtain ⟨k, hk⟩ := fractionDigits_append n
  have hpadded : c ∈ padded 9 n := hk ▸ List.mem_append_left _ hc
  exact padded_digits hpadded

theorem fractionText_eq (hn : n ≠ 0) : fractionText n = '.' :: fractionDigits n :=
  if_neg hn

/-- Two texts that end in a character above all others compare like any continuations of
them, unless one is a beginning of the other: then the longer one comes first. -/
theorem ended_lt_iff {z : Char} {u v : List Char} (hu : ∀ c ∈ u, c < z) (hv : ∀ c ∈ v, c < z) :
    u ++ [z] < v ++ [z] ↔ (u ++ x < v ++ y ∧ ¬u <+: v) ∨ (v <+: u ∧ u ≠ v) := by
  induction u generalizing v with
  | nil =>
    cases v with
    | nil => simp
    | cons d v =>
      have hd := hv d List.mem_cons_self
      have hnot : ¬z < d := Char.lt_asymm hd
      have hne : z ≠ d := fun h => Char.lt_irrefl _ (h ▸ hd)
      simp [cons_lt_cons_iff, hnot, hne]
  | cons c u ih =>
    have hc := hu c List.mem_cons_self
    cases v with
    | nil => simp [cons_lt_cons_iff, hc]
    | cons d v =>
      have hrest := ih (v := v) (fun e he => hu e (List.mem_cons_of_mem _ he))
        fun e he => hv e (List.mem_cons_of_mem _ he)
      by_cases hcd : c = d
      · subst hcd
        simp only [cons_append, cons_lt_cons_same, List.cons_prefix_cons, true_and, ne_eq,
          List.cons.injEq]
        exact hrest
      · have hdc : d ≠ c := fun h => hcd h.symm
        simp [cons_lt_cons_iff, List.cons_prefix_cons, hcd, hdc]

/-- The digits of a smaller fraction do not continue those of a larger one. -/
theorem not_prefix_of_lt (hm : m < 10 ^ 9) (hn : n < 10 ^ 9) (h : m < n) :
    ¬fractionDigits n <+: fractionDigits m := by
  rintro ⟨rest, hrest⟩
  obtain ⟨k, hk⟩ := fractionDigits_append m
  obtain ⟨l, hl⟩ := fractionDigits_append n
  have hlt := (padded_lt_iff hm hn).mpr h
  have hlen := congrArg length hk
  have hlen' := congrArg length hl
  rw [padded_length] at hlen hlen'
  rw [hk, hl, ← hrest, List.append_assoc, append_lt_append_iff rfl] at hlt
  have hsame : (rest ++ replicate k '0').length = l := by
    rw [← hrest] at hlen
    simp only [List.length_append, List.length_replicate] at hlen hlen' ⊢
    omega
  rcases hlt with hlt | ⟨-, hlt⟩
  · exact List.lt_irrefl _ hlt
  · have hlow : ∀ d ∈ rest ++ replicate k '0', ¬d < '0' := by
      intro d hd
      rcases List.mem_append.mp hd with hd | hd
      · exact (fractionDigits_lt (n := m) (hrest ▸ List.mem_append_right _ hd)).1
      · rw [List.eq_of_mem_replicate hd]
        exact Char.lt_irrefl _
    exact not_lt_replicate hlow (hsame ▸ hlt)

/-- In the same second the text of the smaller fraction comes first, unless the digits of
the larger one continue it. -/
theorem fraction_lt_iff (hm : m < 10 ^ 9) (hn : n < 10 ^ 9) :
    fractionText m ++ ['Z'] < fractionText n ++ ['Z'] ↔
      (m < n ∧ ¬fractionDigits m <+: fractionDigits n) ∨
        (n < m ∧ fractionDigits n <+: fractionDigits m) := by
  have hzero : fractionDigits 0 = [] := by decide
  rcases Nat.eq_zero_or_pos m with rfl | hm0
  · rcases Nat.eq_zero_or_pos n with rfl | hn0
    · simp [List.lt_irrefl]
    · rw [fractionText_eq (Nat.pos_iff_ne_zero.mp hn0), hzero]
      show 'Z' :: [] < '.' :: (fractionDigits n ++ ['Z']) ↔ _
      rw [cons_lt_cons_iff]
      simp
  · rcases Nat.eq_zero_or_pos n with rfl | hn0
    · rw [fractionText_eq (Nat.pos_iff_ne_zero.mp hm0), hzero]
      show '.' :: (fractionDigits m ++ ['Z']) < 'Z' :: [] ↔ _
      rw [cons_lt_cons_iff]
      simp [hm0]
    · obtain ⟨k, hk⟩ := fractionDigits_append m
      obtain ⟨l, hl⟩ := fractionDigits_append n
      rw [fractionText_eq (Nat.pos_iff_ne_zero.mp hm0),
        fractionText_eq (Nat.pos_iff_ne_zero.mp hn0),
        cons_append, cons_append, cons_lt_cons_same,
        ended_lt_iff (x := replicate k '0') (y := replicate l '0')
          (fun c hc => (fractionDigits_lt hc).2) (fun c hc => (fractionDigits_lt hc).2),
        ← hk, ← hl, padded_lt_iff hm hn]
      rcases Nat.lt_trichotomy m n with hlt | rfl | hgt
      · have hnot := not_prefix_of_lt hm hn hlt
        have hge : ¬n < m := Nat.lt_asymm hlt
        simp [hlt, hnot, hge]
      · simp
      · have hne : fractionDigits m ≠ fractionDigits n := by
          intro heq
          exact not_prefix_of_lt hn hm hgt (heq ▸ List.prefix_refl _)
        have hge : ¬m < n := Nat.lt_asymm hgt
        simp [hgt, hne, hge]

end SoloDock.Lib
