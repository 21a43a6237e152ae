import PropertyGraph.Text.Quoted

/-!
# Digests

The SHA-256 digest of a byte string, eight words of 32 bits, and its text in base sixteen.  The
bytes are filled up to whole blocks of sixteen words, with a one bit after them and their length in
bits at the end, and each block is worked into the digest of those before it.
-/

namespace PropertyGraph

/-- A digest, or what there is of one between two blocks or two rounds. -/
structure Digest where
  (a b c d e f g h : UInt32)
deriving DecidableEq, Repr

namespace Digest

/-- What the first block is worked into: 32 bits after the point of the square root of each of the
first eight primes. -/
def initial : Digest :=
  ⟨0x6a09e667, 0xbb67ae85, 0x3c6ef372, 0xa54ff53a, 0x510e527f, 0x9b05688c, 0x1f83d9ab, 0x5be0cd19⟩

/-- What is added in each round: 32 bits after the point of the cube root of each of the first 64
primes. -/
def constants : List UInt32 :=
  [0x428a2f98, 0x71374491, 0xb5c0fbcf, 0xe9b5dba5, 0x3956c25b, 0x59f111f1, 0x923f82a4, 0xab1c5ed5,
   0xd807aa98, 0x12835b01, 0x243185be, 0x550c7dc3, 0x72be5d74, 0x80deb1fe, 0x9bdc06a7, 0xc19bf174,
   0xe49b69c1, 0xefbe4786, 0x0fc19dc6, 0x240ca1cc, 0x2de92c6f, 0x4a7484aa, 0x5cb0a9dc, 0x76f988da,
   0x983e5152, 0xa831c66d, 0xb00327c8, 0xbf597fc7, 0xc6e00bf3, 0xd5a79147, 0x06ca6351, 0x14292967,
   0x27b70a85, 0x2e1b2138, 0x4d2c6dfc, 0x53380d13, 0x650a7354, 0x766a0abb, 0x81c2c92e, 0x92722c85,
   0xa2bfe8a1, 0xa81a664b, 0xc24b8b70, 0xc76c51a3, 0xd192e819, 0xd6990624, 0xf40e3585, 0x106aa070,
   0x19a4c116, 0x1e376c08, 0x2748774c, 0x34b0bcb5, 0x391c0cb3, 0x4ed8aa4a, 0x5b9cca4f, 0x682e6ff3,
   0x748f82ee, 0x78a5636f, 0x84c87814, 0x8cc70208, 0x90befffa, 0xa4506ceb, 0xbef9a3f7, 0xc67178f2]

/-- A word with its last `n` bits moved to the front. -/
def rotate (x n : UInt32) : UInt32 := (x >>> n) ||| (x <<< (32 - n))

/-- One round: works a word of the schedule in. -/
def round (s : Digest) (k w : UInt32) : Digest :=
  let mixed := rotate s.e 6 ^^^ rotate s.e 11 ^^^ rotate s.e 25
  let chosen := (s.e &&& s.f) ^^^ (~~~s.e &&& s.g)
  let t := s.h + mixed + chosen + k + w
  let mixed' := rotate s.a 2 ^^^ rotate s.a 13 ^^^ rotate s.a 22
  let common := (s.a &&& s.b) ^^^ (s.a &&& s.c) ^^^ (s.b &&& s.c)
  ⟨t + (mixed' + common), s.a, s.b, s.c, s.d + t, s.e, s.f, s.g⟩

/-- The word of the schedule that comes after the last sixteen ones. -/
def following (ws : List UInt32) : UInt32 :=
  let early := ws.getD 1 0
  let late := ws.getD 14 0
  (rotate late 17 ^^^ rotate late 19 ^^^ (late >>> 10)) + ws.getD 9 0 +
    (rotate early 7 ^^^ rotate early 18 ^^^ (early >>> 3)) + ws.getD 0 0

/-- One round with the first word of the schedule, which the next one then stands after. -/
def step (p : Digest × List UInt32) (k : UInt32) : Digest × List UInt32 :=
  (round p.1 k (p.2.getD 0 0), p.2.tail ++ [following p.2])

/-- Works a block in. -/
def compress (s : Digest) (block : List UInt32) : Digest :=
  let t := (constants.foldl step (s, block)).1
  ⟨s.a + t.a, s.b + t.b, s.c + t.c, s.d + t.d, s.e + t.e, s.f + t.f, s.g + t.g, s.h + t.h⟩

/-- Works a word in: it joins those that wait, and sixteen words are a block. -/
def absorb (p : Digest × List UInt32) (w : UInt32) : Digest × List UInt32 :=
  let waiting := p.2 ++ [w]
  if waiting.length = 16 then (compress p.1 waiting, []) else (p.1, waiting)

/-- The words that bytes make, the highest byte first. -/
def wordsOf : List UInt8 → List UInt32
  | a :: b :: c :: d :: rest =>
    (a.toUInt32 <<< 24 ||| b.toUInt32 <<< 16 ||| c.toUInt32 <<< 8 ||| d.toUInt32) :: wordsOf rest
  | _ => []

/-- Bytes filled up to whole blocks. -/
def filled (bytes : List UInt8) : List UInt8 :=
  let length := bytes.length
  bytes ++ 0x80 :: List.replicate ((119 - length % 64) % 64) 0 ++
    (List.range 8).map fun i => UInt8.ofNat (8 * length / Nat.pow 256 (7 - i))

/-- The digest of bytes. -/
def ofBytes (bytes : List UInt8) : Digest :=
  ((wordsOf (filled bytes)).foldl absorb (initial, [])).1

def words (s : Digest) : List UInt32 := [s.a, s.b, s.c, s.d, s.e, s.f, s.g, s.h]

/-- The text of a digest. -/
def text (s : Digest) : String :=
  String.ofList (s.words.flatMap fun w => Text.hexDigits 8 w.toNat)

example : (ofBytes "abc".toUTF8.toList).text =
    "ba7816bf8f01cfea414140de5dae2223b00361a396177a9cb410ff61f20015ad" := by
  decide +kernel

end Digest

end PropertyGraph
