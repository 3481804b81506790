/-! # Blake2b

The hash behind record identifiers, address checksums, tipset links and method numbers.
The working state is a grid of four rows of four words; a round mixes its columns and then
its diagonals. -/

namespace TraceLedger.Blake2b

/-- Four words that are mixed side by side. -/
structure Row where
  w0 : UInt64
  w1 : UInt64
  w2 : UInt64
  w3 : UInt64
deriving DecidableEq

namespace Row

def add (a b : Row) : Row := ⟨a.w0 + b.w0, a.w1 + b.w1, a.w2 + b.w2, a.w3 + b.w3⟩

def xor (a b : Row) : Row := ⟨a.w0 ^^^ b.w0, a.w1 ^^^ b.w1, a.w2 ^^^ b.w2, a.w3 ^^^ b.w3⟩

/-- Rotates one word right by `n` bits. -/
def rotateWord (n x : UInt64) : UInt64 := (x >>> n) ||| (x <<< (64 - n))

/-- Rotates every word right by `n` bits. -/
def rotate (n : UInt64) (a : Row) : Row :=
  ⟨rotateWord n a.w0, rotateWord n a.w1, rotateWord n a.w2, rotateWord n a.w3⟩

/-- Moves every word one column to the left, around the end. -/
def shift (a : Row) : Row := ⟨a.w1, a.w2, a.w3, a.w0⟩

def toList (a : Row) : List UInt64 := [a.w0, a.w1, a.w2, a.w3]

end Row

/-- The working state of one compression. -/
structure Grid where
  a : Row
  b : Row
  c : Row
  d : Row

namespace Grid

/-- Mixes the four columns with two message words each. -/
def mix (v : Grid) (x y : Row) : Grid :=
  let a := (v.a.add v.b).add x
  let d := (v.d.xor a).rotate 32
  let c := v.c.add d
  let b := (v.b.xor c).rotate 24
  let a := (a.add b).add y
  let d := (d.xor a).rotate 16
  let c := c.add d
  let b := (b.xor c).rotate 63
  ⟨a, b, c, d⟩

/-- Brings the diagonals into the columns. -/
def diagonal (v : Grid) : Grid := ⟨v.a, v.b.shift, v.c.shift.shift, v.d.shift.shift.shift⟩

/-- Undoes `diagonal`. -/
def straighten (v : Grid) : Grid := ⟨v.a, v.b.shift.shift.shift, v.c.shift.shift, v.d.shift⟩

end Grid

/-- The chaining value: the eight words that one block hands to the next. -/
structure Chain where
  low : Row
  high : Row
deriving DecidableEq

/-- The initialisation vector. -/
def seed : Chain where
  low := ⟨0x6a09e667f3bcc908, 0xbb67ae8584caa73b, 0x3c6ef372fe94f82b, 0xa54ff53a5f1d36f1⟩
  high := ⟨0x510e527fade682d1, 0x9b05688c2b3e6c1f, 0x1f83d9abfb41bd6b, 0x5be0cd19137e2179⟩

/-- The order in which each of the twelve rounds takes the message words. -/
def schedule : List (List Nat) := [
  [0, 1, 2, 3, 4, 5, 6, 7, 8, 9, 10, 11, 12, 13, 14, 15],
  [14, 10, 4, 8, 9, 15, 13, 6, 1, 12, 0, 2, 11, 7, 5, 3],
  [11, 8, 12, 0, 5, 2, 15, 13, 10, 14, 3, 6, 7, 1, 9, 4],
  [7, 9, 3, 1, 13, 12, 11, 14, 2, 6, 5, 10, 4, 0, 15, 8],
  [9, 0, 5, 7, 2, 4, 10, 15, 14, 1, 11, 12, 6, 8, 3, 13],
  [2, 12, 6, 10, 0, 11, 8, 3, 4, 13, 7, 5, 15, 14, 1, 9],
  [12, 5, 1, 15, 14, 13, 4, 10, 0, 7, 6, 3, 9, 2, 8, 11],
  [13, 11, 7, 14, 12, 1, 3, 9, 5, 0, 15, 4, 8, 6, 2, 10],
  [6, 15, 14, 9, 11, 3, 0, 8, 12, 2, 13, 7, 1, 4, 10, 5],
  [10, 2, 8, 4, 7, 6, 1, 5, 15, 11, 9, 14, 3, 12, 13, 0],
  [0, 1, 2, 3, 4, 5, 6, 7, 8, 9, 10, 11, 12, 13, 14, 15],
  [14, 10, 4, 8, 9, 15, 13, 6, 1, 12, 0, 2, 11, 7, 5, 3]]

/-- One round over the message words, taken in the given order. -/
def round (words : List UInt64) (v : Grid) (order : List Nat) : Grid :=
  match order.map (words.getD · 0) with
  | [m0, m1, m2, m3, m4, m5, m6, m7, m8, m9, m10, m11, m12, m13, m14, m15] =>
    let v := v.mix ⟨m0, m2, m4, m6⟩ ⟨m1, m3, m5, m7⟩
    (v.diagonal.mix ⟨m8, m10, m12, m14⟩ ⟨m9, m11, m13, m15⟩).straighten
  | _ => v

/-- The little-endian word of up to eight bytes. -/
def word (bytes : List UInt8) : UInt64 :=
  bytes.foldr (fun byte rest => (rest <<< 8) ||| byte.toUInt64) 0

/-- The eight bytes of a word, lowest first. -/
def wordBytes (w : UInt64) : List UInt8 :=
  (List.range 8).map fun i => (w >>> (8 * UInt64.ofNat i)).toUInt8

/-- Number of bytes in a block. -/
def blockSize : Nat := 128

/-- Compresses one block. `count` is the number of message bytes up to its end; a short block
is filled up with zeros. -/
def compress (h : Chain) (block : List UInt8) (count : Nat) (last : Bool) : Chain :=
  let words := (List.range 16).map fun i => word ((block.drop (8 * i)).take 8)
  let mask : Row :=
    ⟨UInt64.ofNat count, UInt64.ofNat (count >>> 64), if last then 0xffffffffffffffff else 0, 0⟩
  let v := schedule.foldl (round words) ⟨h.low, h.high, seed.low, seed.high.xor mask⟩
  ⟨h.low.xor (v.a.xor v.c), h.high.xor (v.b.xor v.d)⟩

/-- Compresses `n` whole blocks and then the last one, of which `count` bytes came before. -/
def absorb (h : Chain) (count : Nat) : (n : Nat) → (data : List UInt8) → Chain
  | 0, data => compress h data (count + data.length) true
  | n + 1, data =>
    absorb (compress h (data.take blockSize) (count + blockSize) false) (count + blockSize) n
      (data.drop blockSize)

/-- The hash of `data` in `size` bytes, without a key. -/
def hash (size : Nat) (data : List UInt8) : List UInt8 :=
  let parameters : Row := ⟨UInt64.ofNat (0x01010000 + size), 0, 0, 0⟩
  let h := absorb ⟨seed.low.xor parameters, seed.high⟩ 0 ((data.length - 1) / blockSize) data
  ((h.low.toList ++ h.high.toList).flatMap wordBytes).take size

end TraceLedger.Blake2b
