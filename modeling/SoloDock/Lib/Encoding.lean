import Mathlib.Algebra.Group.Nat.Defs

/-!
# Bytes and their spellings

Hexadecimal, unpadded base64url, decimal numbers and UUIDs, as the libraries that
write and read them document it.
-/

namespace SoloDock.Lib

open UInt8 (ofNat)

abbrev Bytes := List UInt8

/-! ## Hexadecimal -/

/-- A lowercase hexadecimal digit. -/
def isHexDigit (c : Char) : Bool :=
  c.isDigit || ('a' ≤ c && c ≤ 'f')

/-- One lowercase hexadecimal digit. -/
def hexDigit (n : Nat) : Char :=
  if n < 10 then Char.ofNat (48 + n) else Char.ofNat (87 + n)

/-- The value of a lowercase hexadecimal digit. -/
def hexValue (c : Char) : Nat :=
  if c.isDigit then c.toNat - 48 else c.toNat - 87

/-- The lowercase hexadecimal spelling of a byte string. -/
def hex (bytes : Bytes) : List Char :=
  bytes.flatMap fun b => [hexDigit (b.toNat / 16), hexDigit (b.toNat % 16)]

/-- The bytes of an even number of hexadecimal digits. -/
def unhex : List Char → Bytes
  | a :: b :: rest => ofNat (hexValue a * 16 + hexValue b) :: unhex rest
  | _ => []

/-- `n` in `width` bytes, the highest first. -/
def bigEndian (width n : Nat) : Bytes :=
  (List.range width).map fun i => ofNat (n / 256 ^ (width - 1 - i))

/-! ## Decimal -/

/-- The number a string of decimal digits spells. -/
def decimalValue (digits : List Char) : Nat :=
  digits.foldl (fun n c => n * 10 + (c.toNat - 48)) 0

/-- `n` in exactly `width` decimal digits. -/
def padded : Nat → Nat → List Char
  | 0, _ => []
  | width + 1, n => padded width (n / 10) ++ [Char.ofNat (48 + n % 10)]

/-! ## Base64 -/

/-- The URL-safe base64 alphabet. -/
def base64Alphabet : List Char :=
  "ABCDEFGHIJKLMNOPQRSTUVWXYZabcdefghijklmnopqrstuvwxyz0123456789-_".toList

/-- The six bits a letter stands for. -/
def sextet (c : Char) : Option Nat := base64Alphabet.findIdx? (· = c)

/-- The letter of six bits. -/
def letter (n : Nat) : Char := base64Alphabet.getD n 'A'

/-- Unpadded base64url: three bytes to four letters, the rest to two or three. -/
def encode64 : Bytes → List Char
  | [] => []
  | [a] => [letter (a.toNat / 4), letter (a.toNat % 4 * 16)]
  | [a, b] =>
    [letter (a.toNat / 4), letter (a.toNat % 4 * 16 + b.toNat / 16), letter (b.toNat % 16 * 4)]
  | a :: b :: c :: rest =>
    letter (a.toNat / 4) :: letter (a.toNat % 4 * 16 + b.toNat / 16)
      :: letter (b.toNat % 16 * 4 + c.toNat / 64) :: letter (c.toNat % 64) :: encode64 rest

/-- Decoding refuses foreign letters, a single last letter and set trailing bits. -/
def decode64 : List Char → Option Bytes
  | [] => some []
  | [_] => none
  | [a, b] => do
    let x ← sextet a
    let y ← sextet b
    if y % 16 = 0 then some [ofNat (x * 4 + y / 16)] else none
  | [a, b, c] => do
    let x ← sextet a
    let y ← sextet b
    let z ← sextet c
    if z % 4 = 0 then
      some [ofNat (x * 4 + y / 16), ofNat (y % 16 * 16 + z / 4)]
    else none
  | a :: b :: c :: d :: rest => do
    let x ← sextet a
    let y ← sextet b
    let z ← sextet c
    let u ← sextet d
    let bytes ← decode64 rest
    some (ofNat (x * 4 + y / 16) :: ofNat (y % 16 * 16 + z / 4)
      :: ofNat (z % 4 * 64 + u) :: bytes)

/-! ## UUIDs -/

/-- An identifier. Only equality and the text form matter; fresh ones are drawn in
increasing order. -/
abbrev Uuid := Nat

/-- The canonical text: 32 hexadecimal digits in groups of 8, 4, 4, 4 and 12. -/
def uuidText (u : Uuid) : String :=
  let digits := (List.range 32).map fun i => hexDigit (u / 16 ^ (31 - i) % 16)
  String.ofList (digits.take 8 ++ '-' :: (digits.drop 8).take 4 ++ '-' :: (digits.drop 12).take 4
    ++ '-' :: (digits.drop 16).take 4 ++ '-' :: digits.drop 20)

/-- The identifier whose canonical text is exactly `value`. -/
def canonicalUuid (value : String) : Option Uuid :=
  let u := (value.toList.filter (· ≠ '-')).foldl (fun n c => n * 16 + hexValue c) 0
  if uuidText u = value then some u else none

/-! ## What was spelled -/

theorem hexValue_hexDigit : ∀ n < 16, hexValue (hexDigit n) = n := by decide

theorem hexDigit_hexValue {c : Char} (h : isHexDigit c = true) :
    hexValue c < 16 ∧ hexDigit (hexValue c) = c := by
  have hall : ∀ n < 103, isHexDigit (Char.ofNat n) = true →
      hexValue (Char.ofNat n) < 16 ∧ hexDigit (hexValue (Char.ofNat n)) = Char.ofNat n := by decide
  have hlt : c.toNat < 103 := by
    simp [isHexDigit, Char.isDigit, Char.le_def, UInt32.le_iff_toNat_le] at h
    omega
  rw [← Char.ofNat_toNat c] at h ⊢
  exact hall _ hlt h

theorem hex_cons (b : UInt8) (bytes : Bytes) :
    hex (b :: bytes) = hexDigit (b.toNat / 16) :: hexDigit (b.toNat % 16) :: hex bytes :=
  rfl

/-- Hexadecimal text reads back. -/
theorem unhex_hex (bytes : Bytes) : unhex (hex bytes) = bytes := by
  induction bytes with
  | nil => rfl
  | cons b bytes ih =>
    have hb := b.toNat_lt
    rw [hex_cons, unhex, ih, hexValue_hexDigit _ (by omega), hexValue_hexDigit _ (by omega),
      Nat.div_add_mod', UInt8.ofNat_toNat]

theorem hex_unhex (digits : List Char) (hlength : digits.length % 2 = 0)
    (h : ∀ c ∈ digits, isHexDigit c = true) : hex (unhex digits) = digits := by
  fun_induction unhex digits with
  | case1 a b rest ih =>
    obtain ⟨ha, h⟩ := List.forall_mem_cons.mp h
    obtain ⟨hb, h⟩ := List.forall_mem_cons.mp h
    obtain ⟨ha, hadigit⟩ := hexDigit_hexValue ha
    obtain ⟨hb, hbdigit⟩ := hexDigit_hexValue hb
    have hbyte : (UInt8.ofNat (hexValue a * 16 + hexValue b)).toNat = hexValue a * 16 +
      hexValue b :=
      UInt8.toNat_ofNat_of_lt' (by simp [UInt8.size]; omega)
    have hhigh : (hexValue a * 16 + hexValue b) / 16 = hexValue a := by omega
    have hlow : (hexValue a * 16 + hexValue b) % 16 = hexValue b := by omega
    rw [List.length_cons, List.length_cons] at hlength
    rw [hex_cons, hbyte, hhigh, hlow, hadigit, hbdigit, ih (by omega) h]
  | case2 digits hshort =>
    match digits with
    | [] => rfl
    | [_] => cases hlength
    | a :: b :: rest => exact absurd rfl (hshort a b rest)

/-- Numbers with the same digits are equal. -/
theorem eq_of_digits {b width u v : Nat} (hu : u < b ^ width) (hv : v < b ^ width)
    (h : ∀ k < width, u / b ^ k % b = v / b ^ k % b) : u = v := by
  have hmod : ∀ k ≤ width, u % b ^ k = v % b ^ k := by
    intro k hk
    induction k with
    | zero => rw [Nat.pow_zero, Nat.mod_one, Nat.mod_one]
    | succ k ih => rw [Nat.mod_pow_succ, Nat.mod_pow_succ, ih (by omega), h k hk]
  rw [← Nat.mod_eq_of_lt hu, ← Nat.mod_eq_of_lt hv, hmod width (Nat.le_refl _)]

theorem digitChar_of_isDigit {c : Char} (h : c.isDigit = true) :
    c.toNat - 48 < 10 ∧ (c.toNat - 48).digitChar = c := by
  have hall : ∀ n < 58, 48 ≤ n → n - 48 < 10 ∧ (n - 48).digitChar = Char.ofNat n := by decide
  have hrange : 48 ≤ c.toNat ∧ c.toNat ≤ 57 := by
    simpa [Char.isDigit, UInt32.le_iff_toNat_le] using h
  simpa [Char.ofNat_toNat] using hall c.toNat (by omega) hrange.1

/-- Reading more digits appends them to the decimal. -/
theorem toDigits_foldl {digits : List Char} (h : ∀ c ∈ digits, c.isDigit = true) {n : Nat}
    (hn : 0 < n) : Nat.toDigits 10 (digits.foldl (fun n c => n * 10 + (c.toNat - 48)) n) =
      Nat.toDigits 10 n ++ digits := by
  induction digits generalizing n with
  | nil => exact (List.append_nil _).symm
  | cons c digits ih =>
    obtain ⟨hc, h⟩ := List.forall_mem_cons.mp h
    obtain ⟨hlt, hchar⟩ := digitChar_of_isDigit hc
    rw [List.foldl_cons, ih h (by omega), Nat.mul_comm n 10,
      ← Nat.toDigits_append_toDigits (by decide) hn hlt, Nat.toDigits_of_lt_base hlt, hchar,
      List.append_assoc, List.singleton_append]

/-- Digits without a leading zero are the decimal of their value. -/
theorem toDigits_decimalValue {digits : List Char} (h : ∀ c ∈ digits, c.isDigit = true)
    (hne : digits ≠ []) (hlead : ¬(1 < digits.length ∧ digits.head? = some '0')) :
    Nat.toDigits 10 (decimalValue digits) = digits := by
  obtain ⟨c, rest, rfl⟩ := List.exists_cons_of_ne_nil hne
  obtain ⟨hc, h⟩ := List.forall_mem_cons.mp h
  obtain ⟨hlt, hchar⟩ := digitChar_of_isDigit hc
  have hfirst : Nat.toDigits 10 (c.toNat - 48) = [c] := by
    rw [Nat.toDigits_of_lt_base hlt, hchar]
  cases rest with
  | nil => simpa [decimalValue] using hfirst
  | cons d rest =>
    have hpos : 0 < c.toNat - 48 := by
      refine Nat.pos_of_ne_zero fun hzero => hlead ⟨by simp, ?_⟩
      rw [← hchar, hzero]
      rfl
    rw [decimalValue, List.foldl_cons, Nat.zero_mul, Nat.zero_add, toDigits_foldl h hpos, hfirst]
    rfl

theorem newline_ne_letter (n : Nat) : '\n' ≠ letter n := by
  have hall : ('A' :: base64Alphabet).all ('\n' ≠ ·) = true := by decide
  refine of_decide_eq_true (List.all_eq_true.mp hall _ ?_)
  rw [letter, List.getD_eq_getElem?_getD]
  cases h : base64Alphabet[n]? with
  | none => exact List.mem_cons_self
  | some c => exact List.mem_cons_of_mem _ (List.mem_of_getElem? h)

/-- Base64 text has no line break. -/
theorem newline_notMem_encode64 (bytes : Bytes) : '\n' ∉ encode64 bytes := by
  fun_induction encode64 bytes <;> simp_all [newline_ne_letter]

/-- The digits of a UUID, without the dashes of its text. -/
theorem digits_uuidText (u : Uuid) :
    (fun l : List Char => l.take 8 ++ (l.drop 9).take 4 ++ (l.drop 14).take 4 ++
      (l.drop 19).take 4 ++ l.drop 24) (uuidText u).toList =
      (List.range 32).map fun i => hexDigit (u / 16 ^ (31 - i) % 16) := by
  rw [uuidText, String.toList_ofList]
  rfl

theorem length_uuidText (u : Uuid) : (uuidText u).toList.length = 36 := by
  simp [uuidText]

/-- Different ids have different texts. -/
theorem uuidText_inj {u v : Uuid} (hu : u < 16 ^ 32) (hv : v < 16 ^ 32)
    (h : uuidText u = uuidText v) : u = v := by
  have hdigits := digits_uuidText u
  rw [h, digits_uuidText v] at hdigits
  refine eq_of_digits hu hv fun k hk => ?_
  have hk' := List.map_inj_left.mp hdigits (31 - k) (by simp; omega)
  rw [Nat.sub_sub_self (by omega)] at hk'
  have := congrArg hexValue hk'
  rwa [hexValue_hexDigit _ (by omega), hexValue_hexDigit _ (by omega), eq_comm] at this

end SoloDock.Lib
