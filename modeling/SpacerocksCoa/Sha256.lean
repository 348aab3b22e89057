import Mathlib.Data.List.Basic

/-!
# SHA-256

The digest of a list of bytes, on words below two to the 32. The schedule is a window of sixteen
words: the first one is used and a new one comes in behind.
-/
namespace Sha256

/-! ## Words -/

def modulus : Nat := 0x100000000

def rotate (x n : Nat) : Nat := (x >>> n) ||| ((x <<< (32 - n)) % modulus)

def sigma (r s shift x : Nat) : Nat := rotate x r ^^^ rotate x s ^^^ (x >>> shift)

def bigSigma (r s t x : Nat) : Nat := rotate x r ^^^ rotate x s ^^^ rotate x t

def choose (x y z : Nat) : Nat := (x &&& y) ^^^ ((modulus - 1 - x) &&& z)

def majority (x y z : Nat) : Nat := (x &&& y) ^^^ (x &&& z) ^^^ (y &&& z)

def constants : List Nat :=
  [0x428a2f98, 0x71374491, 0xb5c0fbcf, 0xe9b5dba5, 0x3956c25b, 0x59f111f1, 0x923f82a4, 0xab1c5ed5,
   0xd807aa98, 0x12835b01, 0x243185be, 0x550c7dc3, 0x72be5d74, 0x80deb1fe, 0x9bdc06a7, 0xc19bf174,
   0xe49b69c1, 0xefbe4786, 0x0fc19dc6, 0x240ca1cc, 0x2de92c6f, 0x4a7484aa, 0x5cb0a9dc, 0x76f988da,
   0x983e5152, 0xa831c66d, 0xb00327c8, 0xbf597fc7, 0xc6e00bf3, 0xd5a79147, 0x06ca6351, 0x14292967,
   0x27b70a85, 0x2e1b2138, 0x4d2c6dfc, 0x53380d13, 0x650a7354, 0x766a0abb, 0x81c2c92e, 0x92722c85,
   0xa2bfe8a1, 0xa81a664b, 0xc24b8b70, 0xc76c51a3, 0xd192e819, 0xd6990624, 0xf40e3585, 0x106aa070,
   0x19a4c116, 0x1e376c08, 0x2748774c, 0x34b0bcb5, 0x391c0cb3, 0x4ed8aa4a, 0x5b9cca4f, 0x682e6ff3,
   0x748f82ee, 0x78a5636f, 0x84c87814, 0x8cc70208, 0x90befffa, 0xa4506ceb, 0xbef9a3f7, 0xc67178f2]

/-! ## Blocks -/

structure State where
  a : Nat
  b : Nat
  c : Nat
  d : Nat
  e : Nat
  f : Nat
  g : Nat
  h : Nat

def initial : State where
  a := 0x6a09e667
  b := 0xbb67ae85
  c := 0x3c6ef372
  d := 0xa54ff53a
  e := 0x510e527f
  f := 0x9b05688c
  g := 0x1f83d9ab
  h := 0x5be0cd19

def nextWord (window : List Nat) : Nat :=
  (sigma 17 19 10 (window.getD 14 0) + window.getD 9 0 + sigma 7 18 3 (window.getD 1 0) +
    window.getD 0 0) % modulus

def round (s : State) (k w : Nat) : State :=
  let first := s.h + bigSigma 6 11 25 s.e + choose s.e s.f s.g + k + w
  let second := bigSigma 2 13 22 s.a + majority s.a s.b s.c
  { a := (first + second) % modulus, b := s.a, c := s.b, d := s.c
    e := (s.d + first) % modulus, f := s.e, g := s.f, h := s.g }

def rounds : List Nat → List Nat → State → State
  | [], _, s => s
  | k :: ks, window, s =>
    rounds ks (window.tail ++ [nextWord window]) (round s k (window.headD 0))

def add (s t : State) : State where
  a := (s.a + t.a) % modulus
  b := (s.b + t.b) % modulus
  c := (s.c + t.c) % modulus
  d := (s.d + t.d) % modulus
  e := (s.e + t.e) % modulus
  f := (s.f + t.f) % modulus
  g := (s.g + t.g) % modulus
  h := (s.h + t.h) % modulus

def compress (s : State) (block : List Nat) : State := add s (rounds constants block s)

/-! ## Messages -/

/-- The words of big-endian bytes. -/
def wordsOf : List UInt8 → List Nat
  | a :: b :: c :: d :: rest =>
    (a.toNat * 2 ^ 24 + b.toNat * 2 ^ 16 + c.toNat * 2 ^ 8 + d.toNat) :: wordsOf rest
  | _ => []

def blocks : Nat → List Nat → List (List Nat)
  | 0, _ => []
  | n + 1, words => words.take 16 :: blocks n (words.drop 16)

def wordBytes (word : Nat) : List UInt8 :=
  [.ofNat (word >>> 24), .ofNat (word >>> 16), .ofNat (word >>> 8), .ofNat word]

/-- A bit, zeros up to a whole block and the number of bits. -/
def pad (message : List UInt8) : List UInt8 :=
  message ++ 0x80 :: List.replicate ((119 - message.length % 64) % 64) 0 ++
    wordBytes (8 * message.length / modulus) ++ wordBytes (8 * message.length)

def sha256 (message : List UInt8) : List UInt8 :=
  let words := wordsOf (pad message)
  let s := (blocks (words.length / 16) words).foldl compress initial
  [s.a, s.b, s.c, s.d, s.e, s.f, s.g, s.h].flatMap wordBytes

theorem sha256_length (message : List UInt8) : (sha256 message).length = 32 := rfl

set_option maxRecDepth 10000 in
example : sha256 [97, 98, 99] =
    [0xba, 0x78, 0x16, 0xbf, 0x8f, 0x01, 0xcf, 0xea, 0x41, 0x41, 0x40, 0xde, 0x5d, 0xae, 0x22,
     0x23, 0xb0, 0x03, 0x61, 0xa3, 0x96, 0x17, 0x7a, 0x9c, 0xb4, 0x10, 0xff, 0x61, 0xf2, 0x00,
     0x15, 0xad] := by
  decide +kernel

/-! ## Keyed digests -/

/-- The key in one block, under a mask. -/
def maskedKey (mask : UInt8) (key : List UInt8) : List UInt8 :=
  let own := if 64 < key.length then sha256 key else key
  (own ++ List.replicate (64 - own.length) 0).map (· ^^^ mask)

def hmacSha256 (key message : List UInt8) : List UInt8 :=
  sha256 (maskedKey 0x5c key ++ sha256 (maskedKey 0x36 key ++ message))

end Sha256
