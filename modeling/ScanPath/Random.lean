/-!
# Reproducible random draws

The draws of a stream are the words of the ChaCha keystream with twelve rounds
under a key made from a 64-bit seed.  A substream has the seed that SipHash
with one and three rounds gives to the pair of master seed and ordinal, so what
is drawn for one ordinal does not depend on the others.
-/

namespace ScanPath.Random

def rotateLeft (x : UInt32) (n : UInt32) : UInt32 := (x <<< n) ||| (x >>> (32 - n))

def quarterRound (s : Array UInt32) (i j k l : Nat) : Array UInt32 :=
  let a := s.getD i 0
  let b := s.getD j 0
  let c := s.getD k 0
  let d := s.getD l 0
  let a := a + b
  let d := rotateLeft (d ^^^ a) 16
  let c := c + d
  let b := rotateLeft (b ^^^ c) 12
  let a := a + b
  let d := rotateLeft (d ^^^ a) 8
  let c := c + d
  let b := rotateLeft (b ^^^ c) 7
  (((s.setIfInBounds i a).setIfInBounds j b).setIfInBounds k c).setIfInBounds l d

def doubleRound (s : Array UInt32) : Array UInt32 :=
  let s := quarterRound s 0 4 8 12
  let s := quarterRound s 1 5 9 13
  let s := quarterRound s 2 6 10 14
  let s := quarterRound s 3 7 11 15
  let s := quarterRound s 0 5 10 15
  let s := quarterRound s 1 6 11 12
  let s := quarterRound s 2 7 8 13
  quarterRound s 3 4 9 14

/-- The sixteen words of block `counter`; the nonce is zero. -/
def block (key : List UInt32) (counter : UInt64) : Array UInt32 :=
  let constants : List UInt32 := [0x61707865, 0x3320646e, 0x79622d32, 0x6b206574]
  let start := (constants ++ key ++ [counter.toUInt32, (counter >>> 32).toUInt32, 0, 0]).toArray
  let mixed := (List.range 6).foldl (fun s _ => doubleRound s) start
  Array.zipWith (· + ·) mixed start

/-- One step of the generator that spreads a seed over a key, and the word it gives. -/
def spread (state : UInt64) : UInt64 × UInt32 :=
  let state := state * 6364136223846793005 + 11634580027462260723
  let mixed := (((state >>> 18) ^^^ state) >>> 27).toUInt32
  let turn := (state >>> 59).toUInt32
  (state, if turn = 0 then mixed else (mixed >>> turn) ||| (mixed <<< (32 - turn)))

def keyWords : Nat → UInt64 → List UInt32
  | 0, _ => []
  | count + 1, state =>
      let (state, word) := spread state
      word :: keyWords count state

structure SipState where
  v0 : UInt64
  v1 : UInt64
  v2 : UInt64
  v3 : UInt64

def rotateLeft64 (x : UInt64) (n : UInt64) : UInt64 := (x <<< n) ||| (x >>> (64 - n))

def sipRound (s : SipState) : SipState :=
  let v0 := s.v0 + s.v1
  let v1 := rotateLeft64 s.v1 13 ^^^ v0
  let v0 := rotateLeft64 v0 32
  let v2 := s.v2 + s.v3
  let v3 := rotateLeft64 s.v3 16 ^^^ v2
  let v0 := v0 + v3
  let v3 := rotateLeft64 v3 21 ^^^ v0
  let v2 := v2 + v1
  let v1 := rotateLeft64 v1 17 ^^^ v2
  let v2 := rotateLeft64 v2 32
  ⟨v0, v1, v2, v3⟩

def sipAbsorb (s : SipState) (word : UInt64) : SipState :=
  let s := sipRound ⟨s.v0, s.v1, s.v2, s.v3 ^^^ word⟩
  ⟨s.v0 ^^^ word, s.v1, s.v2, s.v3⟩

/-- The seed of a substream: the hash of the sixteen bytes of both numbers under a zero key. -/
def substreamSeed (master substream : UInt64) : UInt64 :=
  let start : SipState :=
    ⟨0x736f6d6570736575, 0x646f72616e646f6d, 0x6c7967656e657261, 0x7465646279746573⟩
  let s := [master, substream, (16 : UInt64) <<< 56].foldl sipAbsorb start
  let s := sipRound (sipRound (sipRound ⟨s.v0, s.v1, s.v2 ^^^ 0xff, s.v3⟩))
  s.v0 ^^^ s.v1 ^^^ s.v2 ^^^ s.v3

structure Stream where
  key : List UInt32
  position : Nat
  deriving DecidableEq, Repr

namespace Stream

def ofSeed (seed : UInt64) : Stream := ⟨keyWords 8 seed, 0⟩

def ofSubstream (master substream : UInt64) : Stream := ofSeed (substreamSeed master substream)

def wordAt (stream : Stream) (position : Nat) : UInt32 :=
  (block stream.key (position / 16).toUInt64).getD (position % 16) 0

def next32 (stream : Stream) : UInt32 × Stream :=
  (stream.wordAt stream.position, ⟨stream.key, stream.position + 1⟩)

def next64 (stream : Stream) : UInt64 × Stream :=
  let low := stream.wordAt stream.position
  let high := stream.wordAt (stream.position + 1)
  (low.toUInt64 ||| (high.toUInt64 <<< 32), ⟨stream.key, stream.position + 2⟩)

/-- A multiple of `2 ^ -51` from `-1` up to but not including `1`. -/
def symmetricUnit (stream : Stream) : Float × Stream :=
  let (word, stream) := stream.next64
  ((word >>> 12).toFloat * 2.220446049250313e-16 * 2.0 + (-1.0), stream)

def bytes (stream : Stream) (count : Nat) : List UInt8 × Stream :=
  let words := (count + 3) / 4
  let drawn := (List.range words).flatMap fun i =>
    let word := stream.wordAt (stream.position + i)
    [word.toUInt8, (word >>> 8).toUInt8, (word >>> 16).toUInt8, (word >>> 24).toUInt8]
  (drawn.take count, ⟨stream.key, stream.position + words⟩)

end Stream

end ScanPath.Random
