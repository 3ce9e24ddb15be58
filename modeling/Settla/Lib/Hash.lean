import Mathlib.Algebra.Group.Nat.Defs
import Mathlib.Data.Nat.Basic

/-!
# Byte-level hash functions

They are plain functions on lists of bytes, written so that they evaluate. Words
are natural numbers below `2 ^ 32`.
-/

namespace Lib

def utf8 (s : String) : List ℕ := s.toUTF8.toList.map UInt8.toNat

variable (bytes : List ℕ)

/-- FNV-1a on 32 bits: xor the byte in, then multiply by the prime. -/
def fnv32a : ℕ :=
  bytes.foldl (fun h b => ((h ^^^ b) * 16777619) % 2 ^ 32) 2166136261

def rotl (n x : ℕ) : ℕ := ((x <<< n) % 2 ^ 32) ||| (x >>> (32 - n))

def ofBytes : ℕ := bytes.foldl (fun acc b => acc * 256 + b) 0

def toBytes : ℕ → ℕ → List ℕ
  | 0, _ => []
  | n + 1, x => x / 256 ^ n % 256 :: toBytes n x

/-- SHA-1 padding: a `0x80` byte, zeros up to 56 modulo 64, the bit length on eight bytes. -/
def sha1Pad : List ℕ :=
  let n := bytes.length
  bytes ++ [0x80] ++ List.replicate ((119 - n % 64) % 64) 0 ++ toBytes 8 (8 * n)

def words : List ℕ → List ℕ
  | a :: b :: c :: d :: rest => ofBytes [a, b, c, d] :: words rest
  | _ => []

/-- The message schedule, newest word first: sixteen words extended to eighty. -/
def schedule : ℕ → List ℕ → List ℕ
  | 0, ws => ws
  | n + 1, ws =>
    schedule n (rotl 1 (ws.getD 2 0 ^^^ ws.getD 7 0 ^^^ ws.getD 13 0 ^^^ ws.getD 15 0) :: ws)

def roundFn (i b c d : ℕ) : ℕ × ℕ :=
  if i < 20 then ((b &&& c) ||| ((b ^^^ (2 ^ 32 - 1)) &&& d), 0x5A827999)
  else if i < 40 then (b ^^^ c ^^^ d, 0x6ED9EBA1)
  else if i < 60 then ((b &&& c) ||| (b &&& d) ||| (c &&& d), 0x8F1BBCDC)
  else (b ^^^ c ^^^ d, 0xCA62C1D6)

structure Sha1State where
  (a b c d e : ℕ)

def rounds : ℕ → List ℕ → Sha1State → Sha1State
  | _, [], s => s
  | i, w :: ws, s =>
    let (f, k) := roundFn i s.b s.c s.d
    rounds (i + 1) ws
      ⟨(rotl 5 s.a + f + s.e + k + w) % 2 ^ 32, s.a, rotl 30 s.b, s.c, s.d⟩

/-- One block: run the rounds and add the result to the chaining words. -/
def compress (s : Sha1State) (block : List ℕ) : Sha1State :=
  let t := rounds 0 (schedule 64 (words block).reverse).reverse s
  ⟨(s.a + t.a) % 2 ^ 32, (s.b + t.b) % 2 ^ 32, (s.c + t.c) % 2 ^ 32, (s.d + t.d) % 2 ^ 32,
    (s.e + t.e) % 2 ^ 32⟩

def compressAll : ℕ → List ℕ → Sha1State → Sha1State
  | 0, _, s => s
  | n + 1, bytes, s => compressAll n (bytes.drop 64) (compress s (bytes.take 64))

def sha1 : List ℕ :=
  let padded := sha1Pad bytes
  let s := compressAll (padded.length / 64) padded
    ⟨0x67452301, 0xEFCDAB89, 0x98BADCFE, 0x10325476, 0xC3D2E1F0⟩
  toBytes 4 s.a ++ toBytes 4 s.b ++ toBytes 4 s.c ++ toBytes 4 s.d ++ toBytes 4 s.e

-- the digest of the empty string
example : ofBytes (sha1 []) = 0xda39a3ee5e6b4b0d3255bfef95601890afd80709 := by decide +kernel

/-! ## SHA-256 -/

def rotr (n x : ℕ) : ℕ := (x >>> n) ||| ((x <<< (32 - n)) % 2 ^ 32)

def sha256K : List ℕ :=
  [0x428a2f98, 0x71374491, 0xb5c0fbcf, 0xe9b5dba5, 0x3956c25b, 0x59f111f1, 0x923f82a4, 0xab1c5ed5,
   0xd807aa98, 0x12835b01, 0x243185be, 0x550c7dc3, 0x72be5d74, 0x80deb1fe, 0x9bdc06a7, 0xc19bf174,
   0xe49b69c1, 0xefbe4786, 0x0fc19dc6, 0x240ca1cc, 0x2de92c6f, 0x4a7484aa, 0x5cb0a9dc, 0x76f988da,
   0x983e5152, 0xa831c66d, 0xb00327c8, 0xbf597fc7, 0xc6e00bf3, 0xd5a79147, 0x06ca6351, 0x14292967,
   0x27b70a85, 0x2e1b2138, 0x4d2c6dfc, 0x53380d13, 0x650a7354, 0x766a0abb, 0x81c2c92e, 0x92722c85,
   0xa2bfe8a1, 0xa81a664b, 0xc24b8b70, 0xc76c51a3, 0xd192e819, 0xd6990624, 0xf40e3585, 0x106aa070,
   0x19a4c116, 0x1e376c08, 0x2748774c, 0x34b0bcb5, 0x391c0cb3, 0x4ed8aa4a, 0x5b9cca4f, 0x682e6ff3,
   0x748f82ee, 0x78a5636f, 0x84c87814, 0x8cc70208, 0x90befffa, 0xa4506ceb, 0xbef9a3f7, 0xc67178f2]

/-- The message schedule, newest word first: sixteen words extended to sixty-four. -/
def schedule256 : ℕ → List ℕ → List ℕ
  | 0, ws => ws
  | n + 1, ws =>
    let x := ws.getD 14 0
    let y := ws.getD 1 0
    let s₀ := rotr 7 x ^^^ rotr 18 x ^^^ (x >>> 3)
    let s₁ := rotr 17 y ^^^ rotr 19 y ^^^ (y >>> 10)
    schedule256 n ((ws.getD 15 0 + s₀ + ws.getD 6 0 + s₁) % 2 ^ 32 :: ws)

structure Sha256State where
  (a b c d e f g h : ℕ)

def rounds256 : List ℕ → List ℕ → Sha256State → Sha256State
  | k :: ks, w :: ws, s =>
    let s₁ := rotr 6 s.e ^^^ rotr 11 s.e ^^^ rotr 25 s.e
    let ch := (s.e &&& s.f) ^^^ ((s.e ^^^ (2 ^ 32 - 1)) &&& s.g)
    let t₁ := s.h + s₁ + ch + k + w
    let s₀ := rotr 2 s.a ^^^ rotr 13 s.a ^^^ rotr 22 s.a
    let maj := (s.a &&& s.b) ^^^ (s.a &&& s.c) ^^^ (s.b &&& s.c)
    rounds256 ks ws ⟨(t₁ + s₀ + maj) % 2 ^ 32, s.a, s.b, s.c, (s.d + t₁) % 2 ^ 32, s.e, s.f, s.g⟩
  | _, _, s => s

def compress256 (s : Sha256State) (block : List ℕ) : Sha256State :=
  let t := rounds256 sha256K (schedule256 48 (words block).reverse).reverse s
  ⟨(s.a + t.a) % 2 ^ 32, (s.b + t.b) % 2 ^ 32, (s.c + t.c) % 2 ^ 32, (s.d + t.d) % 2 ^ 32,
    (s.e + t.e) % 2 ^ 32, (s.f + t.f) % 2 ^ 32, (s.g + t.g) % 2 ^ 32, (s.h + t.h) % 2 ^ 32⟩

def compressAll256 : ℕ → List ℕ → Sha256State → Sha256State
  | 0, _, s => s
  | n + 1, bytes, s => compressAll256 n (bytes.drop 64) (compress256 s (bytes.take 64))

def sha256 : List ℕ :=
  let padded := sha1Pad bytes
  let s := compressAll256 (padded.length / 64) padded
    ⟨0x6a09e667, 0xbb67ae85, 0x3c6ef372, 0xa54ff53a,
      0x510e527f, 0x9b05688c, 0x1f83d9ab, 0x5be0cd19⟩
  toBytes 4 s.a ++ toBytes 4 s.b ++ toBytes 4 s.c ++ toBytes 4 s.d ++
    toBytes 4 s.e ++ toBytes 4 s.f ++ toBytes 4 s.g ++ toBytes 4 s.h

-- the digest of "abc"
example : ofBytes (sha256 [97, 98, 99]) =
    0xba7816bf8f01cfea414140de5dae2223b00361a396177a9cb410ff61f20015ad := by decide +kernel

end Lib
