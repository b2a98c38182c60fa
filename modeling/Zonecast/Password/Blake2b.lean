/-
The hash function BLAKE2b without a key (RFC 7693), for digests of 1 to 64 bytes.
-/

namespace Zonecast.Password.Blake2b

/-- Eight words, from 64 bytes on; little-endian. -/
def word (bytes : List UInt8) : UInt64 :=
  bytes.foldr (fun byte value => value * 256 + byte.toUInt64) 0

/-- The bytes of a number, little-endian, at a width. -/
def littleEndian : Nat → Nat → List UInt8
  | 0, _ => []
  | width + 1, value => UInt8.ofNat (value % 256) :: littleEndian width (value / 256)

/-- The words of so many times eight bytes; missing bytes are zeros. -/
def words : Nat → List UInt8 → List UInt64
  | 0, _ => []
  | count + 1, bytes => word (bytes.take 8) :: words count (bytes.drop 8)

/-- A rotation to the right. -/
@[inline] def rotate (value by' : UInt64) : UInt64 :=
  (value >>> by') ||| (value <<< (64 - by'))

/-- The initial state. -/
def initial : Array UInt64 :=
  #[0x6a09e667f3bcc908, 0xbb67ae8584caa73b, 0x3c6ef372fe94f82b, 0xa54ff53a5f1d36f1,
    0x510e527fade682d1, 0x9b05688c2b3e6c1f, 0x1f83d9abfb41bd6b, 0x5be0cd19137e2179]

/-- The order in which the rounds take the words of the message. -/
def schedule : Array (Array Nat) :=
  #[#[0, 1, 2, 3, 4, 5, 6, 7, 8, 9, 10, 11, 12, 13, 14, 15],
    #[14, 10, 4, 8, 9, 15, 13, 6, 1, 12, 0, 2, 11, 7, 5, 3],
    #[11, 8, 12, 0, 5, 2, 15, 13, 10, 14, 3, 6, 7, 1, 9, 4],
    #[7, 9, 3, 1, 13, 12, 11, 14, 2, 6, 5, 10, 4, 0, 15, 8],
    #[9, 0, 5, 7, 2, 4, 10, 15, 14, 1, 11, 12, 6, 8, 3, 13],
    #[2, 12, 6, 10, 0, 11, 8, 3, 4, 13, 7, 5, 15, 14, 1, 9],
    #[12, 5, 1, 15, 14, 13, 4, 10, 0, 7, 6, 3, 9, 2, 8, 11],
    #[13, 11, 7, 14, 12, 1, 3, 9, 5, 0, 15, 4, 8, 6, 2, 10],
    #[6, 15, 14, 9, 11, 3, 0, 8, 12, 2, 13, 7, 1, 4, 10, 5],
    #[10, 2, 8, 4, 7, 6, 1, 5, 15, 11, 9, 14, 3, 12, 13, 0]]

/-- The places that the eight steps of a round mix: four columns, then four diagonals. -/
def lines : List (Nat × Nat × Nat × Nat) :=
  [(0, 4, 8, 12), (1, 5, 9, 13), (2, 6, 10, 14), (3, 7, 11, 15),
    (0, 5, 10, 15), (1, 6, 11, 12), (2, 7, 8, 13), (3, 4, 9, 14)]

/-- Mixes two words of the message into four places of the state. -/
def mix (state : Array UInt64) (line : Nat × Nat × Nat × Nat) (first second : UInt64) :
    Array UInt64 :=
  let (i, j, k, l) := line
  let a := state.getD i 0 + state.getD j 0 + first
  let d := rotate (state.getD l 0 ^^^ a) 32
  let c := state.getD k 0 + d
  let b := rotate (state.getD j 0 ^^^ c) 24
  let a := a + b + second
  let d := rotate (d ^^^ a) 16
  let c := c + d
  let b := rotate (b ^^^ c) 63
  (((state.setIfInBounds i a).setIfInBounds j b).setIfInBounds k c).setIfInBounds l d

/-- One round. -/
def round (message : Array UInt64) (state : Array UInt64) (number : Nat) : Array UInt64 :=
  let order := schedule.getD (number % 10) #[]
  lines.zipIdx.foldl (fun state (line, step) =>
    mix state line (message.getD (order.getD (2 * step) 0) 0)
      (message.getD (order.getD (2 * step + 1) 0) 0)) state

/-- Takes a block of 128 bytes into the state; `count` bytes have been taken with it. -/
def compress (state : Array UInt64) (block : List UInt8) (count : Nat) (last : Bool) :
    Array UInt64 :=
  let message := (words 16 block).toArray
  let work := state ++ initial
  let work := work.modify 12 (· ^^^ UInt64.ofNat (count % UInt64.size))
  let work := work.modify 13 (· ^^^ UInt64.ofNat (count / UInt64.size))
  let work := if last then work.modify 14 (fun value => ~~~value) else work
  let mixed := (List.range 12).foldl (round message) work
  (Array.range 8).map fun i => state.getD i 0 ^^^ mixed.getD i 0 ^^^ mixed.getD (i + 8) 0

/-- Takes the blocks of a message, of which so many are followed by another. -/
def absorb : Nat → Nat → Array UInt64 → List UInt8 → Array UInt64
  | 0, taken, state, bytes => compress state bytes (taken + bytes.length) true
  | more + 1, taken, state, bytes =>
    absorb more (taken + 128) (compress state (bytes.take 128) (taken + 128) false)
      (bytes.drop 128)

/-- The digest of so many bytes. -/
def digest (size : Nat) (bytes : List UInt8) : List UInt8 :=
  let state := initial.modify 0 (· ^^^ (0x01010000 + UInt64.ofNat size))
  let final := absorb ((bytes.length - 1) / 128) 0 state bytes
  (final.toList.flatMap fun value => littleEndian 8 value.toNat).take size

end Zonecast.Password.Blake2b
