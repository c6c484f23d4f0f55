import PhiTransport.Base.Octets

/-!
# SHA-256, HMAC and PBKDF2

The hash of FIPS 180-4 and the two constructions over it, for byte strings. The
message schedule is a window of sixteen words that moves on by one every round.
What is proved is the one thing a caller that checks lengths sees: every
digest has 32 bytes.
-/

namespace Sha256

open Octets

/-! ## Compression -/

/-- The eight chaining words. -/
structure Words where
  (a b c d e f g h : UInt32)

def Words.add (s t : Words) : Words :=
  ⟨s.a + t.a, s.b + t.b, s.c + t.c, s.d + t.d, s.e + t.e, s.f + t.f, s.g + t.g, s.h + t.h⟩

def initial : Words :=
  ⟨0x6a09e667, 0xbb67ae85, 0x3c6ef372, 0xa54ff53a, 0x510e527f, 0x9b05688c, 0x1f83d9ab, 0x5be0cd19⟩

def roundConstants : List UInt32 :=
  [0x428a2f98, 0x71374491, 0xb5c0fbcf, 0xe9b5dba5, 0x3956c25b, 0x59f111f1, 0x923f82a4, 0xab1c5ed5,
    0xd807aa98, 0x12835b01, 0x243185be, 0x550c7dc3, 0x72be5d74, 0x80deb1fe, 0x9bdc06a7, 0xc19bf174,
    0xe49b69c1, 0xefbe4786, 0x0fc19dc6, 0x240ca1cc, 0x2de92c6f, 0x4a7484aa, 0x5cb0a9dc, 0x76f988da,
    0x983e5152, 0xa831c66d, 0xb00327c8, 0xbf597fc7, 0xc6e00bf3, 0xd5a79147, 0x06ca6351, 0x14292967,
    0x27b70a85, 0x2e1b2138, 0x4d2c6dfc, 0x53380d13, 0x650a7354, 0x766a0abb, 0x81c2c92e, 0x92722c85,
    0xa2bfe8a1, 0xa81a664b, 0xc24b8b70, 0xc76c51a3, 0xd192e819, 0xd6990624, 0xf40e3585, 0x106aa070,
    0x19a4c116, 0x1e376c08, 0x2748774c, 0x34b0bcb5, 0x391c0cb3, 0x4ed8aa4a, 0x5b9cca4f, 0x682e6ff3,
    0x748f82ee, 0x78a5636f, 0x84c87814, 0x8cc70208, 0x90befffa, 0xa4506ceb, 0xbef9a3f7, 0xc67178f2]

def rotr (x n : UInt32) : UInt32 := (x >>> n) ||| (x <<< (32 - n))

def round (s : Words) (k w : UInt32) : Words :=
  let sum1 := rotr s.e 6 ^^^ rotr s.e 11 ^^^ rotr s.e 25
  let choice := (s.e &&& s.f) ^^^ (~~~s.e &&& s.g)
  let t := s.h + sum1 + choice + k + w
  let sum0 := rotr s.a 2 ^^^ rotr s.a 13 ^^^ rotr s.a 22
  let majority := (s.a &&& s.b) ^^^ (s.a &&& s.c) ^^^ (s.b &&& s.c)
  ⟨t + (sum0 + majority), s.a, s.b, s.c, s.d + t, s.e, s.f, s.g⟩

/-- The word that enters the window of the last sixteen. -/
def nextWord (window : List UInt32) : UInt32 :=
  let w1 := window.getD 1 0
  let w14 := window.getD 14 0
  let sigma0 := rotr w1 7 ^^^ rotr w1 18 ^^^ (w1 >>> 3)
  let sigma1 := rotr w14 17 ^^^ rotr w14 19 ^^^ (w14 >>> 10)
  sigma1 + window.getD 9 0 + sigma0 + window.getD 0 0

def rounds : List UInt32 → List UInt32 → Words → Words
  | [], _, s => s
  | k :: ks, window, s =>
      rounds ks (window.tail ++ [nextWord window]) (round s k (window.headD 0))

def compress (s : Words) (block : List UInt32) : Words := s.add (rounds roundConstants block s)

/-- Compress `n` blocks of sixteen words. -/
def compressBlocks : ℕ → List UInt32 → Words → Words
  | 0, _, s => s
  | n + 1, ws, s => compressBlocks n (ws.drop 16) (compress s (ws.take 16))

/-! ## Messages and digests -/

def wordOf (a b c d : UInt8) : UInt32 :=
  (a.toUInt32 <<< 24) ||| (b.toUInt32 <<< 16) ||| (c.toUInt32 <<< 8) ||| d.toUInt32

def wordsOf : Bytes → List UInt32
  | a :: b :: c :: d :: t => wordOf a b c d :: wordsOf t
  | _ => []

def bytesOf (w : UInt32) : Bytes :=
  [(w >>> 24).toUInt8, (w >>> 16).toUInt8, (w >>> 8).toUInt8, w.toUInt8]

/-- The message, a one bit, zeros, and the length in bits as 64-bit big endian. -/
def pad (message : Bytes) : Bytes :=
  message ++ 0x80 :: List.replicate ((119 - message.length % 64) % 64) 0 ++
    (List.range 8).map fun i => UInt8.ofNat (message.length * 8 / 256 ^ (7 - i))

def Words.toBytes (s : Words) : Bytes :=
  bytesOf s.a ++ bytesOf s.b ++ bytesOf s.c ++ bytesOf s.d ++ bytesOf s.e ++ bytesOf s.f ++
    bytesOf s.g ++ bytesOf s.h

def hash (message : Bytes) : Bytes :=
  let padded := pad message
  (compressBlocks (padded.length / 64) (wordsOf padded) initial).toBytes

theorem length_hash (message : Bytes) : (hash message).length = 32 := by
  simp [hash, Words.toBytes, bytesOf]

example : hash (ascii "abc") =
    [0xba, 0x78, 0x16, 0xbf, 0x8f, 0x01, 0xcf, 0xea, 0x41, 0x41, 0x40, 0xde, 0x5d, 0xae, 0x22, 0x23,
      0xb0, 0x03, 0x61, 0xa3, 0x96, 0x17, 0x7a, 0x9c, 0xb4, 0x10, 0xff, 0x61, 0xf2, 0x00, 0x15,
      0xad] := by
  decide +kernel

/-! ## Keyed hashes -/

def hmac (key message : Bytes) : Bytes :=
  let short := if key.length > 64 then hash key else key
  let block := short ++ List.replicate (64 - short.length) 0
  hash (block.map (· ^^^ 0x5C) ++ hash (block.map (· ^^^ 0x36) ++ message))

theorem length_hmac (key message : Bytes) : (hmac key message).length = 32 := length_hash _

/-- The rounds of PBKDF2 after the first: each hashes the last one and is xored in. -/
def pbkdf2Rounds (password : Bytes) : ℕ → Bytes → Bytes → Bytes
  | 0, _, t => t
  | n + 1, u, t =>
      let next := hmac password u
      pbkdf2Rounds password n next (List.zipWith (fun a b => a ^^^ b) t next)

theorem length_pbkdf2Rounds (password : Bytes) (n : ℕ) (u t : Bytes) (h : t.length = 32) :
    (pbkdf2Rounds password n u t).length = 32 := by
  induction n generalizing u t with
  | zero => exact h
  | succ n ih =>
      rw [pbkdf2Rounds]
      apply ih
      rw [List.length_zipWith, h, length_hmac, Nat.min_self]

/-- PBKDF2 for a key of one digest. -/
def pbkdf2 (password salt : Bytes) (iterations : ℕ) : Bytes :=
  let first := hmac password (salt ++ [0, 0, 0, 1])
  pbkdf2Rounds password (iterations - 1) first first

theorem length_pbkdf2 (password salt : Bytes) (iterations : ℕ) :
    (pbkdf2 password salt iterations).length = 32 :=
  length_pbkdf2Rounds password _ _ _ (length_hmac _ _)

end Sha256
