import Playground.Files.Tree
/-!
The order in which a directory lists its names. Names are ordered by a hash of their bytes: half of
the rounds of MD4, over blocks of eight words that carry four bytes each.
-/

namespace Playground

namespace NameHash

/-- The four words that the rounds work on. -/
structure Quad where
  a : UInt32
  b : UInt32
  c : UInt32
  d : UInt32
deriving DecidableEq, Repr

/-- The words that a hash starts from. -/
def start : Quad :=
  ⟨0x67452301, 0xEFCDAB89, 0x98BADCFE, 0x10325476⟩

/-- Word by word sums. -/
def Quad.plus (q r : Quad) : Quad :=
  ⟨q.a + r.a, q.b + r.b, q.c + r.c, q.d + r.d⟩

/-- Turns the bits of a word to the left. -/
def rotate (x shift : UInt32) : UInt32 :=
  (x <<< shift) ||| (x >>> (32 - shift))

/-- One kind of round: how three words are combined, a number that is added to every word of the
block, the order in which the block is read, and the rotations, which repeat. -/
structure Round where
  combine : UInt32 → UInt32 → UInt32 → UInt32
  added : UInt32
  order : List Nat
  rotations : List UInt32

/-- The rounds. -/
def rounds : List Round :=
  [⟨fun x y z => z ^^^ (x &&& (y ^^^ z)), 0, [0, 1, 2, 3, 4, 5, 6, 7], [3, 7, 11, 19]⟩,
    ⟨fun x y z => (x &&& y) + ((x ^^^ y) &&& z), 0x5A827999, [1, 3, 5, 7, 0, 2, 4, 6],
      [3, 5, 9, 13]⟩,
    ⟨fun x y z => x ^^^ y ^^^ z, 0x6ED9EBA1, [3, 7, 2, 6, 1, 5, 0, 4], [3, 9, 11, 15]⟩]

/-- Works one round on a block. The four words change their places after every step. -/
def Round.apply (r : Round) (block : List UInt32) (q : Quad) : Quad :=
  (r.order.zip (r.rotations ++ r.rotations)).foldl (fun q (i, shift) =>
    let sum := q.a + r.combine q.b q.c q.d + block.getD i 0 + r.added
    ⟨q.d, rotate sum shift, q.b, q.c⟩) q

/-- Works a block into a hash. -/
def absorb (q : Quad) (block : List UInt32) : Quad :=
  q.plus (rounds.foldl (fun r round => round.apply block r) q)

/-- A byte as a word, with its sign. -/
def signedWord (b : UInt8) : UInt32 :=
  if b < 128 then b.toUInt32 else b.toUInt32 - 256

/-- The block that the next 32 of the given bytes make. Their number fills what they leave empty. -/
def block (bytes : List UInt8) : List UInt32 :=
  let length := UInt32.ofNat bytes.length
  let pair := length ||| (length <<< 8)
  let filling := pair ||| (pair <<< 16)
  (List.range 8).map fun i =>
    ((bytes.drop (4 * i)).take 4).foldl (fun word b => signedWord b + (word <<< 8)) filling

/-- The hash of the bytes of a name. -/
def hash (bytes : List UInt8) : Quad :=
  (List.range ((bytes.length + 31) / 32)).foldl
    (fun q i => absorb q (block (bytes.drop (32 * i)))) start

/-- The highest value that the first word of a rank can have. -/
def highest : UInt32 := 0xFFFFFFFC

/-- The rank of a name: two words of its hash, the first one even. -/
def rank (name : String) : Nat × Nat :=
  let q := hash name.toUTF8.toList
  ((min (q.b &&& 0xFFFFFFFE) highest).toNat, q.c.toNat)

end NameHash

/-- Names of the entries of a directory, in the order in which it lists them. -/
def FileTree.listing (t : FileTree) (p : Place) : List String :=
  let ranked := (t.names p).map fun name => (NameHash.rank name, name)
  let sorted := ranked.mergeSort fun (a, _) (b, _) =>
    decide (a.1 < b.1) || (a.1 == b.1 && decide (a.2 ≤ b.2))
  sorted.map (·.2)

end Playground
