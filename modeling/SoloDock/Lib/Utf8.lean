import SoloDock.Lib.Encoding

/-!
# UTF-8

Encoding, and decoding in which each maximal invalid part is replaced, as
`String::from_utf8_lossy` documents it. Decoding works on items that each show one
byte, so that a caller can follow where a character comes from: a decoded character
carries the item of its first byte.
-/

namespace SoloDock.Lib

open UInt8 (ofNat)

/-- The UTF-8 bytes of a character. -/
def utf8 (c : Char) : Bytes :=
  let n := c.toNat
  if n < 0x80 then [ofNat n]
  else if n < 0x800 then [ofNat (0xC0 + n / 64), ofNat (0x80 + n % 64)]
  else if n < 0x10000 then
    [ofNat (0xE0 + n / 4096), ofNat (0x80 + n / 64 % 64), ofNat (0x80 + n % 64)]
  else
    [ofNat (0xF0 + n / 262144), ofNat (0x80 + n / 4096 % 64),
      ofNat (0x80 + n / 64 % 64), ofNat (0x80 + n % 64)]

/-- The bytes of a text. -/
def utf8Text (text : List Char) : Bytes := text.flatMap utf8

/-- A byte that continues a character. -/
def isContinuation (b : Nat) : Bool := 0x80 ≤ b && b ≤ 0xBF

/-- The replacement character. -/
def replacement : Char := '�'

/-- The second byte that may follow a first byte of three or four. -/
def secondInRange (first second : Nat) : Bool :=
  (if first = 0xE0 then 0xA0 else if first = 0xF0 then 0x90 else 0x80) ≤ second
    && second ≤ (if first = 0xED then 0x9F else if first = 0xF4 then 0x8F else 0xBF)

/-- The character that starts here and its length, or the length of the invalid part. A
byte beyond the end reads as zero. -/
def decodeStep (b0 b1 b2 b3 : Nat) : Option Char × Nat :=
  if b0 < 0x80 then (some (Char.ofNat b0), 1)
  else if 0xC2 ≤ b0 ∧ b0 ≤ 0xDF then
    if isContinuation b1 then (some (Char.ofNat ((b0 - 0xC0) * 64 + (b1 - 0x80))), 2)
    else (none, 1)
  else if 0xE0 ≤ b0 ∧ b0 ≤ 0xEF then
    if !secondInRange b0 b1 then (none, 1)
    else if !isContinuation b2 then (none, 2)
    else (some (Char.ofNat ((b0 - 0xE0) * 4096 + (b1 - 0x80) * 64 + (b2 - 0x80))), 3)
  else if 0xF0 ≤ b0 ∧ b0 ≤ 0xF4 then
    if !secondInRange b0 b1 then (none, 1)
    else if !isContinuation b2 then (none, 2)
    else if !isContinuation b3 then (none, 3)
    else (some (Char.ofNat
      ((b0 - 0xF0) * 262144 + (b1 - 0x80) * 4096 + (b2 - 0x80) * 64 + (b3 - 0x80))), 4)
  else (none, 1)

/-- The byte at a position, zero beyond the end. -/
def byteAt (bytes : Bytes) (i : Nat) : Nat := (bytes.getD i 0).toNat

/-- `decodeStep` at the start of a byte string. -/
def decodeHead (bytes : Bytes) : Option Char × Nat :=
  decodeStep (byteAt bytes 0) (byteAt bytes 1) (byteAt bytes 2) (byteAt bytes 3)

section Lossy

variable {α : Type} (view : α → UInt8)

/-- The decoding loop; every round consumes at least one item, so as many rounds as there
are items are enough. -/
def lossyLoop : Nat → List α → List (Char × α)
  | 0, _ => []
  | _ + 1, [] => []
  | rounds + 1, a :: rest =>
    let (c, width) := decodeHead ((a :: rest).map view)
    (c.getD replacement, a) :: lossyLoop rounds ((a :: rest).drop width)

def fromUtf8Lossy (items : List α) : List (Char × α) := lossyLoop view items.length items

end Lossy

/-! ## Decoding what was encoded -/

theorem utf8_length_pos (c : Char) : 0 < (utf8 c).length := by
  unfold utf8
  dsimp only
  split
  · exact Nat.one_pos
  · split
    · exact Nat.two_pos
    · split <;> simp

theorem Char.toNat_bounds (c : Char) :
    c.toNat < 0x110000 ∧ (c.toNat < 0xD800 ∨ 0xDFFF < c.toNat) := by
  have h := c.valid
  have : c.toNat = c.val.toNat := rfl
  omega

theorem isContinuation_tail (n : Nat) : isContinuation (0x80 + n % 64) = true := by
  unfold isContinuation
  simp only [Bool.and_eq_true, decide_eq_true_eq]
  omega

theorem decodeStep_two {n x y : Nat} (h : 0x80 ≤ n) (h' : n < 0x800) :
    decodeStep (0xC0 + n / 64) (0x80 + n % 64) x y = (some (Char.ofNat n), 2) := by
  unfold decodeStep
  have hn : (0xC0 + n / 64 - 0xC0) * 64 + (0x80 + n % 64 - 0x80) = n := by omega
  rw [if_neg (by omega), if_pos (by omega), if_pos (isContinuation_tail n), hn]

theorem decodeStep_three {n x : Nat} (h : 0x800 ≤ n) (h' : n < 0x10000)
    (hs : n < 0xD800 ∨ 0xDFFF < n) :
    decodeStep (0xE0 + n / 4096) (0x80 + n / 64 % 64) (0x80 + n % 64) x =
      (some (Char.ofNat n), 3) := by
  have hrange : secondInRange (0xE0 + n / 4096) (0x80 + n / 64 % 64) = true := by
    unfold secondInRange
    simp only [Bool.and_eq_true, decide_eq_true_eq]
    split <;> split <;> (try split) <;> (try split) <;> omega
  unfold decodeStep
  have hn : (0xE0 + n / 4096 - 0xE0) * 4096 + (0x80 + n / 64 % 64 - 0x80) * 64
      + (0x80 + n % 64 - 0x80) = n := by omega
  rw [if_neg (by omega), if_neg (by omega), if_pos (by omega), hrange, isContinuation_tail, hn]
  rfl

theorem decodeStep_four {n : Nat} (h : 0x10000 ≤ n) (h' : n < 0x110000) :
    decodeStep (0xF0 + n / 262144) (0x80 + n / 4096 % 64) (0x80 + n / 64 % 64) (0x80 + n % 64) =
      (some (Char.ofNat n), 4) := by
  have hrange : secondInRange (0xF0 + n / 262144) (0x80 + n / 4096 % 64) = true := by
    unfold secondInRange
    simp only [Bool.and_eq_true, decide_eq_true_eq]
    split <;> (try split) <;> (try split) <;> (try split) <;> omega
  unfold decodeStep
  have hn : (0xF0 + n / 262144 - 0xF0) * 262144 + (0x80 + n / 4096 % 64 - 0x80) * 4096
      + (0x80 + n / 64 % 64 - 0x80) * 64 + (0x80 + n % 64 - 0x80) = n := by omega
  rw [if_neg (by omega), if_neg (by omega), if_neg (by omega), if_pos (by omega), hrange,
    isContinuation_tail, isContinuation_tail, hn]
  rfl

theorem toNat_ofNat_of_lt {n : Nat} (h : n < 256) : (ofNat n).toNat = n := by
  rw [UInt8.toNat_ofNat']
  exact Nat.mod_eq_of_lt h

/-- Decoding the bytes of a character gives it back, whatever follows. -/
theorem decodeHead_utf8 (c : Char) (rest : Bytes) :
    decodeHead (utf8 c ++ rest) = (some c, (utf8 c).length) := by
  obtain ⟨hlt, hsurrogate⟩ := Char.toNat_bounds c
  have hc : Char.ofNat c.toNat = c := Char.ofNat_toNat c
  unfold utf8
  dsimp only
  split
  next h =>
    show decodeStep (ofNat c.toNat).toNat _ _ _ = (some c, 1)
    rw [toNat_ofNat_of_lt (by omega), decodeStep, if_pos h, hc]
  next h =>
    split
    next h' =>
      show decodeStep (ofNat _).toNat (ofNat _).toNat _ _ = (some c, 2)
      rw [toNat_ofNat_of_lt (by omega), toNat_ofNat_of_lt (by omega),
        decodeStep_two (by omega) h', hc]
    next h' =>
      split
      next h'' =>
        show decodeStep (ofNat _).toNat (ofNat _).toNat (ofNat _).toNat _ =
          (some c, 3)
        rw [toNat_ofNat_of_lt (by omega), toNat_ofNat_of_lt (by omega),
          toNat_ofNat_of_lt (by omega), decodeStep_three (by omega) h'' hsurrogate, hc]
      next h'' =>
        show decodeStep (ofNat _).toNat (ofNat _).toNat (ofNat _).toNat
          (ofNat _).toNat = (some c, 4)
        rw [toNat_ofNat_of_lt (by omega), toNat_ofNat_of_lt (by omega),
          toNat_ofNat_of_lt (by omega), toNat_ofNat_of_lt (by omega),
          decodeStep_four (by omega) hlt, hc]

theorem utf8_append_inj {c d : Char} {x y : Bytes} (h : utf8 c ++ x = utf8 d ++ y) :
    c = d ∧ x = y := by
  have hhead := congrArg decodeHead h
  rw [decodeHead_utf8, decodeHead_utf8] at hhead
  obtain rfl : c = d := Option.some.inj (Prod.mk.inj hhead).1
  exact ⟨rfl, List.append_cancel_left h⟩

/-- A text whose bytes start another text's bytes starts that text. -/
theorem prefix_of_utf8Text {ps cs : List Char} {rest : Bytes}
    (h : utf8Text cs = utf8Text ps ++ rest) : ∃ ds, cs = ps ++ ds ∧ rest = utf8Text ds := by
  induction ps generalizing cs with
  | nil => exact ⟨cs, rfl, h.symm⟩
  | cons p ps ih =>
    cases cs with
    | nil =>
      have := congrArg List.length h
      have hpos := utf8_length_pos p
      simp only [utf8Text, List.flatMap_nil, List.flatMap_cons, List.length_nil,
        List.length_append] at this
      omega
    | cons c cs =>
      simp only [utf8Text, List.flatMap_cons, List.append_assoc] at h
      obtain ⟨rfl, htail⟩ := utf8_append_inj h
      obtain ⟨ds, rfl, hrest⟩ := ih htail
      exact ⟨ds, rfl, hrest⟩

/-- The bytes of a character after the first continue it, the first does not. -/
theorem utf8_eq_cons (c : Char) : ∃ b bs, utf8 c = b :: bs ∧ isContinuation b.toNat = false ∧
    ∀ b' ∈ bs, isContinuation b'.toNat = true := by
  obtain ⟨hlt, _⟩ := Char.toNat_bounds c
  have hcont : ∀ n, isContinuation (ofNat (0x80 + n % 64)).toNat = true := by
    intro n
    rw [toNat_ofNat_of_lt (by omega)]
    exact isContinuation_tail n
  have hfirst : ∀ n, n < 256 → (n < 0x80 ∨ 0xBF < n) →
      isContinuation (ofNat n).toNat = false := by
    intro n hn hrange
    rw [toNat_ofNat_of_lt hn]
    unfold isContinuation
    simp only [Bool.and_eq_false_iff, decide_eq_false_iff_not]
    omega
  unfold utf8
  dsimp only
  split
  · exact ⟨_, _, rfl, hfirst _ (by omega) (by omega), nofun⟩
  · split
    · refine ⟨_, _, rfl, hfirst _ (by omega) (by omega), ?_⟩
      simp only [List.mem_cons, List.not_mem_nil, or_false, forall_eq]
      exact hcont _
    · split
      · refine ⟨_, _, rfl, hfirst _ (by omega) (by omega), ?_⟩
        simp only [List.mem_cons, List.not_mem_nil, or_false, forall_eq_or_imp, forall_eq]
        exact ⟨hcont _, hcont _⟩
      · refine ⟨_, _, rfl, hfirst _ (by omega) (by omega), ?_⟩
        simp only [List.mem_cons, List.not_mem_nil, or_false, forall_eq_or_imp, forall_eq]
        exact ⟨hcont _, hcont _, hcont _⟩

/-! ## Texts whose characters carry something -/

section Spell

variable {β : Type}

/-- The bytes of a text, each with what its character carries. -/
def spell (items : List (Char × β)) : List (UInt8 × β) :=
  items.flatMap fun item => (utf8 item.1).map (·, item.2)

/-- The characters of a byte string, each with what its first byte carries. -/
def unspell (bytes : List (UInt8 × β)) : List (Char × β) :=
  (fromUtf8Lossy Prod.fst bytes).map fun item => (item.1, item.2.2)

@[simp] theorem map_fst_pair (l : List α) (x : β) : (l.map (·, x)).map Prod.fst = l := by
  rw [List.map_map]
  exact List.map_id l

theorem spell_cons (item : Char × β) (items : List (Char × β)) :
    spell (item :: items) = (utf8 item.1).map (·, item.2) ++ spell items := rfl

theorem spell_append (x y : List (Char × β)) : spell (x ++ y) = spell x ++ spell y :=
  List.flatMap_append

theorem lossyLoop_spell (items : List (Char × β)) (rest : List (UInt8 × β)) (rounds : Nat) :
    (lossyLoop Prod.fst (items.length + rounds) (spell items ++ rest)).map
      (fun item => (item.1, item.2.2)) =
    items ++ (lossyLoop Prod.fst rounds rest).map fun item => (item.1, item.2.2) := by
  induction items with
  | nil =>
    rw [List.length_nil, Nat.zero_add]
    rfl
  | cons item items ih =>
    obtain ⟨b, bs, hbytes, _⟩ := utf8_eq_cons item.1
    have hitems : spell (item :: items) ++ rest =
        (b, item.2) :: (bs.map (·, item.2) ++ (spell items ++ rest)) := by
      rw [spell_cons, hbytes]
      simp
    have hview : ((b, item.2) :: (bs.map (·, item.2) ++ (spell items ++ rest))).map Prod.fst =
        utf8 item.1 ++ (spell items ++ rest).map Prod.fst := by
      rw [hbytes, List.map_cons, List.map_append, map_fst_pair]
      rfl
    have hrounds : (item :: items).length + rounds = (items.length + rounds) + 1 := by
      rw [List.length_cons]
      omega
    rw [hitems, hrounds, lossyLoop, hview, decodeHead_utf8]
    have hdrop : ((b, item.2) :: (bs.map (·, item.2) ++ (spell items ++ rest))).drop
        (utf8 item.1).length = spell items ++ rest := by
      rw [hbytes]
      simp
    dsimp only
    rw [hdrop, List.map_cons, ih]
    rfl

theorem length_le_spell (items : List (Char × β)) : items.length ≤ (spell items).length := by
  induction items with
  | nil => exact Nat.le_refl _
  | cons item items ih =>
    have hpos := utf8_length_pos item.1
    rw [spell_cons, List.length_append, List.length_map, List.length_cons]
    omega

/-- Decoding gives a text back, and goes on with what follows. -/
theorem unspell_spell_append (items : List (Char × β)) (rest : List (UInt8 × β)) :
    ∃ more, unspell (spell items ++ rest) = items ++ more ∧ (rest = [] → more = []) := by
  have hle := length_le_spell items
  have hrounds : (spell items ++ rest).length =
      items.length + ((spell items ++ rest).length - items.length) := by
    rw [List.length_append]
    omega
  refine ⟨(lossyLoop Prod.fst ((spell items ++ rest).length - items.length) rest).map
    fun item => (item.1, item.2.2), ?_, ?_⟩
  · unfold unspell fromUtf8Lossy
    rw [hrounds, lossyLoop_spell, ← hrounds]
  · rintro rfl
    cases (spell items ++ []).length - items.length <;> rfl

end Spell

end SoloDock.Lib
