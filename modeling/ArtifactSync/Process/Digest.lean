import ArtifactSync.Process.Fraction

/-!
# Digests

Digests of bytes that tools print. Three of them mix blocks of 64 bytes into a few words of 32 bits,
one block after the other; the message is filled up with a bit, zeros and its length. The fourth is
the remainder of the bytes, taken as a polynomial, and of their number.
-/

namespace ArtifactSync.Process.Digest

/-- A word whose bits have moved to the left by so many places, those that fall off coming back in
at the right. -/
def turned (w : UInt32) (places : UInt32) : UInt32 :=
  (w <<< places) ||| (w >>> (32 - places))

/-- The bytes of a number, the last of so many first. -/
def bytesOf (count n : Nat) : List UInt8 :=
  (List.range count).map fun i => UInt8.ofNat (n / Nat.pow 256 i % 256)

/-- The number of bytes of which the last comes first. -/
def numberOf (bytes : List UInt8) : Nat :=
  bytes.foldr (fun b n => n * 256 + b.toNat) 0

/-- A message that is filled up to whole blocks of 64 bytes; the length is written with its first or
its last byte in front. -/
def filled (firstInFront : Bool) (message : List UInt8) : List UInt8 :=
  let zeros := (119 - message.length % 64) % 64
  let length := bytesOf 8 (8 * message.length)
  message ++ 128 :: List.replicate zeros 0 ++ (if firstInFront then length.reverse else length)

/-- A list in parts of so many members, at most `limit` parts. -/
def partsOf {α : Type} (size : Nat) : Nat → List α → List (List α)
  | 0, _ => []
  | limit + 1, xs => if xs.isEmpty then [] else xs.take size :: partsOf size limit (xs.drop size)

/-- The words of a block. -/
def wordsOf (firstInFront : Bool) (block : List UInt8) : List UInt32 :=
  (partsOf 4 block.length block).map fun part =>
    UInt32.ofNat (numberOf (if firstInFront then part.reverse else part))

/-- Mixes the blocks of a message into words one after another: the bytes of the words at last. Each
block changes a copy of the words, which is added to them. -/
def mixed (firstInFront : Bool) (start : List UInt32)
    (mix : List UInt32 → List UInt32 → List UInt32) (message : List UInt8) : List UInt8 :=
  let bytes := filled firstInFront message
  let words := (partsOf 64 bytes.length bytes).foldl (fun words block =>
    let changed := mix words (wordsOf firstInFront block)
    List.zipWith (· + ·) words changed) start
  words.flatMap fun w =>
    let bytes := bytesOf 4 w.toNat
    if firstInFront then bytes.reverse else bytes

/-- The words of a block and more words that are made of them, each from the ones so many places in
front of it. -/
def extended (next : (Nat → UInt32) → UInt32) (count : Nat) (block : List UInt32) : Array UInt32 :=
  (List.range count).foldl (fun words _ =>
    words.push (next fun back => words.getD (words.size - back) 0)) block.toArray

/-! ## Five words of 160 bits -/

/-- The digest of 160 bits. -/
def sha1 : List UInt8 → List UInt8 :=
  mixed true [0x67452301, 0xefcdab89, 0x98badcfe, 0x10325476, 0xc3d2e1f0] fun words block =>
    let schedule := extended (fun before =>
      turned (before 3 ^^^ before 8 ^^^ before 14 ^^^ before 16) 1) 64 block
    schedule.toList.zipIdx.foldl (fun state (w, i) =>
      match state with
      | [a, b, c, d, e] =>
        let (f, k) :=
          if i < 20 then ((b &&& c) ||| (~~~b &&& d), 0x5a827999)
          else if i < 40 then (b ^^^ c ^^^ d, 0x6ed9eba1)
          else if i < 60 then ((b &&& c) ||| (b &&& d) ||| (c &&& d), 0x8f1bbcdc)
          else (b ^^^ c ^^^ d, 0xca62c1d6)
        [turned a 5 + f + e + k + w, a, turned b 30, c, d]
      | state => state) words

/-! ## Eight words of 256 bits -/

/-- The first prime numbers. -/
def primes : List Nat :=
  (List.range 312).filter fun n => 2 ≤ n && (List.range n).all fun d => d < 2 || n % d ≠ 0

/-- The first 32 bits behind the point of a root of a number. The root is found bit by bit. -/
def rootPart (degree n : Nat) : UInt32 :=
  let scaled := n * Nat.pow 2 (32 * degree)
  let root := (List.range 40).foldl (fun root i =>
    let next := root + Nat.pow 2 (39 - i)
    if Nat.pow next degree ≤ scaled then next else root) 0
  UInt32.ofNat (root % Nat.pow 2 32)

/-- The numbers that are added in each round. -/
def roundNumbers : List UInt32 :=
  primes.map (rootPart 3)

/-- The digest of 256 bits. -/
def sha256 : List UInt8 → List UInt8 :=
  let back := fun (w : UInt32) (places : UInt32) => turned w (32 - places)
  mixed true ((primes.take 8).map (rootPart 2)) fun words block =>
    let schedule := extended (fun before =>
      let low := before 15
      let high := before 2
      before 16 + (back low 7 ^^^ back low 18 ^^^ (low >>> 3)) + before 7 +
        (back high 17 ^^^ back high 19 ^^^ (high >>> 10))) 48 block
    (schedule.toList.zip roundNumbers).foldl (fun state (w, k) =>
      match state with
      | [a, b, c, d, e, f, g, h] =>
        let first := h + (back e 6 ^^^ back e 11 ^^^ back e 25) +
          ((e &&& f) ^^^ (~~~e &&& g)) + k + w
        let second := (back a 2 ^^^ back a 13 ^^^ back a 22) +
          ((a &&& b) ^^^ (a &&& c) ^^^ (b &&& c))
        [first + second, a, b, c, d + first, e, f, g]
      | state => state) words

/-! ## Four words of 128 bits -/

/-- The numbers that are added in each round: the sines of the numbers from one on. -/
def sineNumbers : List UInt32 := [
  0xd76aa478, 0xe8c7b756, 0x242070db, 0xc1bdceee, 0xf57c0faf, 0x4787c62a, 0xa8304613, 0xfd469501,
  0x698098d8, 0x8b44f7af, 0xffff5bb1, 0x895cd7be, 0x6b901122, 0xfd987193, 0xa679438e, 0x49b40821,
  0xf61e2562, 0xc040b340, 0x265e5a51, 0xe9b6c7aa, 0xd62f105d, 0x02441453, 0xd8a1e681, 0xe7d3fbc8,
  0x21e1cde6, 0xc33707d6, 0xf4d50d87, 0x455a14ed, 0xa9e3e905, 0xfcefa3f8, 0x676f02d9, 0x8d2a4c8a,
  0xfffa3942, 0x8771f681, 0x6d9d6122, 0xfde5380c, 0xa4beea44, 0x4bdecfa9, 0xf6bb4b60, 0xbebfbc70,
  0x289b7ec6, 0xeaa127fa, 0xd4ef3085, 0x04881d05, 0xd9d4d039, 0xe6db99e5, 0x1fa27cf8, 0xc4ac5665,
  0xf4292244, 0x432aff97, 0xab9423a7, 0xfc93a039, 0x655b59c3, 0x8f0ccc92, 0xffeff47d, 0x85845dd1,
  0x6fa87e4f, 0xfe2ce6e0, 0xa3014314, 0x4e0811a1, 0xf7537e82, 0xbd3af235, 0x2ad7d2bb, 0xeb86d391]

/-- How far a word is turned in a round. -/
def turnOf (i : Nat) : UInt32 :=
  let turns : List (List UInt32) :=
    [[7, 12, 17, 22], [5, 9, 14, 20], [4, 11, 16, 23], [6, 10, 15, 21]]
  (turns.getD (i / 16) []).getD (i % 4) 0

/-- The digest of 128 bits. -/
def md5 : List UInt8 → List UInt8 :=
  mixed false [0x67452301, 0xefcdab89, 0x98badcfe, 0x10325476] fun words block =>
    sineNumbers.zipIdx.foldl (fun state (k, i) =>
      match state with
      | [a, b, c, d] =>
        let (f, place) :=
          if i < 16 then ((b &&& c) ||| (~~~b &&& d), i)
          else if i < 32 then ((d &&& b) ||| (~~~d &&& c), (5 * i + 1) % 16)
          else if i < 48 then (b ^^^ c ^^^ d, (3 * i + 5) % 16)
          else (c ^^^ (b ||| ~~~d), 7 * i % 16)
        [d, b + turned (a + f + k + block.getD place 0) (turnOf i), b, c]
      | state => state) words

/-! ## A remainder -/

/-- The remainder behind one more byte. -/
def shifted (remainder : UInt32) (b : UInt8) : UInt32 :=
  (List.range 8).foldl (fun r _ =>
    if r &&& 0x80000000 ≠ 0 then (r <<< 1) ^^^ 0x04c11db7 else r <<< 1)
    (remainder ^^^ (UInt32.ofNat b.toNat <<< 24))

/-- The bytes of a number without zeros at its end, the last first; at most `limit` of them. -/
def shortBytes : Nat → Nat → List UInt8
  | 0, _ => []
  | limit + 1, n => if n = 0 then [] else UInt8.ofNat (n % 256) :: shortBytes limit (n / 256)

/-- The checksum of bytes: the remainder of them and of their number. -/
def checksum (bytes : List UInt8) : Nat :=
  (~~~((bytes ++ shortBytes 8 bytes.length).foldl shifted 0)).toNat

/-- Bytes as digits to the base sixteen. -/
def spelled (bytes : List UInt8) : List Char :=
  bytes.flatMap fun b => Fraction.digitsIn 16 2 b.toNat

end ArtifactSync.Process.Digest
