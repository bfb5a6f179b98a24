import SoloDock.Lib.Encoding

/-!
# SHA-256 and its MAC

The two functions the hashes and signatures of the program are made with, by their definition:
the results take them as parameters, and the runs on fixed inputs use these. A word is a number
below `2 ^ 32`.
-/

namespace SoloDock.Lib.Sha256

def roundConstants : List Nat :=
  [0x428a2f98, 0x71374491, 0xb5c0fbcf, 0xe9b5dba5, 0x3956c25b, 0x59f111f1, 0x923f82a4, 0xab1c5ed5,
    0xd807aa98, 0x12835b01, 0x243185be, 0x550c7dc3, 0x72be5d74, 0x80deb1fe, 0x9bdc06a7, 0xc19bf174,
    0xe49b69c1, 0xefbe4786, 0x0fc19dc6, 0x240ca1cc, 0x2de92c6f, 0x4a7484aa, 0x5cb0a9dc, 0x76f988da,
    0x983e5152, 0xa831c66d, 0xb00327c8, 0xbf597fc7, 0xc6e00bf3, 0xd5a79147, 0x06ca6351, 0x14292967,
    0x27b70a85, 0x2e1b2138, 0x4d2c6dfc, 0x53380d13, 0x650a7354, 0x766a0abb, 0x81c2c92e, 0x92722c85,
    0xa2bfe8a1, 0xa81a664b, 0xc24b8b70, 0xc76c51a3, 0xd192e819, 0xd6990624, 0xf40e3585, 0x106aa070,
    0x19a4c116, 0x1e376c08, 0x2748774c, 0x34b0bcb5, 0x391c0cb3, 0x4ed8aa4a, 0x5b9cca4f, 0x682e6ff3,
    0x748f82ee, 0x78a5636f, 0x84c87814, 0x8cc70208, 0x90befffa, 0xa4506ceb, 0xbef9a3f7, 0xc67178f2]

/-- The eight words of the hash and of a round. -/
structure Words where
  (a b c d e f g h : Nat)

def initial : Words :=
  ⟨0x6a09e667, 0xbb67ae85, 0x3c6ef372, 0xa54ff53a, 0x510e527f, 0x9b05688c, 0x1f83d9ab, 0x5be0cd19⟩

def word (n : Nat) : Nat := n % 2 ^ 32

def rotate (x n : Nat) : Nat := word (x >>> n ||| x <<< (32 - n))

/-- The message schedule, the latest word first, with `n` words more. -/
def extend : Nat → List Nat → List Nat
  | 0, schedule => schedule
  | n + 1, schedule =>
    let w2 := schedule.getD 1 0
    let w15 := schedule.getD 14 0
    let s0 := rotate w15 7 ^^^ rotate w15 18 ^^^ w15 >>> 3
    let s1 := rotate w2 17 ^^^ rotate w2 19 ^^^ w2 >>> 10
    extend n (word (schedule.getD 15 0 + s0 + schedule.getD 6 0 + s1) :: schedule)

def round (s : Words) (constant scheduled : Nat) : Words :=
  let s1 := rotate s.e 6 ^^^ rotate s.e 11 ^^^ rotate s.e 25
  let choice := (s.e &&& s.f) ^^^ ((0xffffffff - s.e) &&& s.g)
  let t1 := s.h + s1 + choice + constant + scheduled
  let s0 := rotate s.a 2 ^^^ rotate s.a 13 ^^^ rotate s.a 22
  let majority := (s.a &&& s.b) ^^^ (s.a &&& s.c) ^^^ (s.b &&& s.c)
  ⟨word (t1 + s0 + majority), s.a, s.b, s.c, word (s.d + t1), s.e, s.f, s.g⟩

/-- The first `n` words of the bytes. -/
def wordsOf : Nat → Bytes → List Nat
  | 0, _ => []
  | n + 1, bytes =>
    (bytes.take 4).foldl (fun value byte => value * 256 + byte.toNat) 0 :: wordsOf n (bytes.drop 4)

def compress (hash : Words) (block : Bytes) : Words :=
  let schedule := (extend 48 (wordsOf 16 block).reverse).reverse
  let s := (roundConstants.zip schedule).foldl (fun s x => round s x.1 x.2) hash
  ⟨word (hash.a + s.a), word (hash.b + s.b), word (hash.c + s.c), word (hash.d + s.d),
    word (hash.e + s.e), word (hash.f + s.f), word (hash.g + s.g), word (hash.h + s.h)⟩

def blocks : Nat → Bytes → List Bytes
  | 0, _ => []
  | n + 1, bytes => bytes.take 64 :: blocks n (bytes.drop 64)

/-- The message with the closing bit, zeros and its length in bits. -/
def padded (message : Bytes) : Bytes :=
  message ++ 0x80 :: List.replicate ((119 - message.length % 64) % 64) 0 ++
    bigEndian 8 (message.length * 8)

def sha256 (message : Bytes) : Bytes :=
  let text := padded message
  let s := (blocks (text.length / 64) text).foldl compress initial
  [s.a, s.b, s.c, s.d, s.e, s.f, s.g, s.h].flatMap (bigEndian 4)

def hmacSha256 (key message : Bytes) : Bytes :=
  let key := if key.length > 64 then sha256 key else key
  let key := key ++ List.replicate (64 - key.length) 0
  sha256 (key.map (· ^^^ 0x5c) ++ sha256 (key.map (· ^^^ 0x36) ++ message))

theorem length_sha256 (message : Bytes) : (sha256 message).length = 32 := rfl

theorem length_hmacSha256 (key message : Bytes) : (hmacSha256 key message).length = 32 := rfl

/-- The published example of the hash. -/
example : sha256 [0x61, 0x62, 0x63] =
    [0xba, 0x78, 0x16, 0xbf, 0x8f, 0x01, 0xcf, 0xea, 0x41, 0x41, 0x40, 0xde, 0x5d, 0xae, 0x22, 0x23,
      0xb0, 0x03, 0x61, 0xa3, 0x96, 0x17, 0x7a, 0x9c, 0xb4, 0x10, 0xff, 0x61, 0xf2, 0x00, 0x15,
      0xad] := by
  decide +kernel

end SoloDock.Lib.Sha256
