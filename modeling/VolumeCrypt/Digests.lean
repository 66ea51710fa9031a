import VolumeCrypt.ByteString

/-!
# SHA-256, HMAC-SHA256 and CRC-32

The digests that the metadata format names: SHA-256 as in FIPS 180-4, HMAC as in
RFC 2104 over it, and the reflected CRC-32 with polynomial `0xedb88320`.
-/
namespace Digests

open ByteString

def rotr (x : UInt32) (n : UInt32) : UInt32 := x >>> n ||| x <<< (32 - n)

/-- The first 32 bits of the fractional parts of the cube roots of the first 64 primes. -/
def roundConstants : List UInt32 :=
  [0x428a2f98, 0x71374491, 0xb5c0fbcf, 0xe9b5dba5, 0x3956c25b, 0x59f111f1, 0x923f82a4, 0xab1c5ed5,
   0xd807aa98, 0x12835b01, 0x243185be, 0x550c7dc3, 0x72be5d74, 0x80deb1fe, 0x9bdc06a7, 0xc19bf174,
   0xe49b69c1, 0xefbe4786, 0x0fc19dc6, 0x240ca1cc, 0x2de92c6f, 0x4a7484aa, 0x5cb0a9dc, 0x76f988da,
   0x983e5152, 0xa831c66d, 0xb00327c8, 0xbf597fc7, 0xc6e00bf3, 0xd5a79147, 0x06ca6351, 0x14292967,
   0x27b70a85, 0x2e1b2138, 0x4d2c6dfc, 0x53380d13, 0x650a7354, 0x766a0abb, 0x81c2c92e, 0x92722c85,
   0xa2bfe8a1, 0xa81a664b, 0xc24b8b70, 0xc76c51a3, 0xd192e819, 0xd6990624, 0xf40e3585, 0x106aa070,
   0x19a4c116, 0x1e376c08, 0x2748774c, 0x34b0bcb5, 0x391c0cb3, 0x4ed8aa4a, 0x5b9cca4f, 0x682e6ff3,
   0x748f82ee, 0x78a5636f, 0x84c87814, 0x8cc70208, 0x90befffa, 0xa4506ceb, 0xbef9a3f7, 0xc67178f2]

structure HashState where
  a : UInt32
  b : UInt32
  c : UInt32
  d : UInt32
  e : UInt32
  f : UInt32
  g : UInt32
  h : UInt32

def initialHash : HashState :=
  ⟨0x6a09e667, 0xbb67ae85, 0x3c6ef372, 0xa54ff53a, 0x510e527f, 0x9b05688c, 0x1f83d9ab, 0x5be0cd19⟩

def HashState.words (s : HashState) : List UInt32 := [s.a, s.b, s.c, s.d, s.e, s.f, s.g, s.h]

def HashState.add (s t : HashState) : HashState :=
  ⟨s.a + t.a, s.b + t.b, s.c + t.c, s.d + t.d, s.e + t.e, s.f + t.f, s.g + t.g, s.h + t.h⟩

/-- Big-endian bytes of a word. -/
def beWord (w : UInt32) : Bytes := (leBytes 4 w.toNat).reverse

/-- The message schedule so far; append the next word. -/
def scheduleStep (w : List UInt32) : List UInt32 :=
  let i := w.length
  let w15 := w.getD (i - 15) 0
  let w2 := w.getD (i - 2) 0
  let s0 := rotr w15 7 ^^^ rotr w15 18 ^^^ (w15 >>> 3)
  let s1 := rotr w2 17 ^^^ rotr w2 19 ^^^ (w2 >>> 10)
  w ++ [w.getD (i - 16) 0 + s0 + w.getD (i - 7) 0 + s1]

def compressStep (s : HashState) (x : UInt32 × UInt32) : HashState :=
  let s1 := rotr s.e 6 ^^^ rotr s.e 11 ^^^ rotr s.e 25
  let ch := (s.e &&& s.f) ^^^ (~~~s.e &&& s.g)
  let t1 := s.h + s1 + ch + x.1 + x.2
  let s0 := rotr s.a 2 ^^^ rotr s.a 13 ^^^ rotr s.a 22
  let maj := (s.a &&& s.b) ^^^ (s.a &&& s.c) ^^^ (s.b &&& s.c)
  ⟨t1 + (s0 + maj), s.a, s.b, s.c, s.d + t1, s.e, s.f, s.g⟩

def compress (s : HashState) (block : Bytes) : HashState :=
  let w := (List.range 16).map fun i => UInt32.ofNat (leNat (slice block (4 * i) 4).reverse)
  let w := scheduleStep^[48] w
  s.add ((roundConstants.zip w).foldl compressStep s)

/-- A one bit, zeros, and the bit length as a big-endian 64-bit number. -/
def padded (m : Bytes) : Bytes :=
  m ++ 0x80 :: List.replicate ((119 - m.length % 64) % 64) 0 ++ (leBytes 8 (8 * m.length)).reverse

def sha256 (m : Bytes) : Fixed 32 :=
  let p := padded m
  let s := (List.range (p.length / 64)).foldl (fun s i => compress s (slice p (64 * i) 64)) initialHash
  Fixed.ofBytes 32 (s.words.flatMap beWord)

/-- The key block of HMAC: a long key is hashed, a short one padded with zeros. -/
def hmacKey (key : Bytes) : Bytes :=
  let k := if 64 < key.length then (sha256 key).toList else key
  k ++ List.replicate (64 - k.length) 0

def hmacSha256 (key m : Bytes) : Fixed 32 :=
  let k := hmacKey key
  sha256 (k.map (· ^^^ 0x5c) ++ (sha256 (k.map (· ^^^ 0x36) ++ m)).toList)

def crcBit (c : UInt32) : UInt32 := if c &&& 1 = 0 then c >>> 1 else (c >>> 1) ^^^ 0xedb88320

def crc32 (m : Bytes) : UInt32 :=
  m.foldl (fun c b => crcBit^[8] (c ^^^ b.toUInt32)) 0xffffffff ^^^ 0xffffffff

end Digests
