/-
The password hash Argon2 (RFC 9106), in its three variants and two versions. The memory is filled
lane by lane in four slices a pass; each new block is compressed from the one before it and one
that is chosen among those already filled, by the content of the memory or by a counter.
-/
import Zonecast.Password.Block

namespace Zonecast.Password

open Blake2b (littleEndian)

/-! ### Parameters -/

/-- How the blocks to take in are chosen. -/
inductive Variant
  /-- By the content of the memory. -/
  | dependent
  /-- By a counter. -/
  | independent
  /-- By a counter in the first half of the first pass, then by the content. -/
  | hybrid
  deriving DecidableEq, Repr

/-- The number that stands for a variant. -/
def Variant.number : Variant → Nat
  | .dependent => 0
  | .independent => 1
  | .hybrid => 2

/-- Whether later passes overwrite the memory or add to it. -/
inductive Version
  | overwriting
  | adding
  deriving DecidableEq, Repr

/-- The number that stands for a version. -/
def Version.number : Version → Nat
  | .overwriting => 16
  | .adding => 19

/-- What a hash is computed with. -/
structure Parameters where
  variant : Variant
  version : Version
  /-- Memory in blocks of 1024 bytes. -/
  memory : Nat
  passes : Nat
  lanes : Nat
  salt : List UInt8
  associated : List UInt8
  /-- The length of the hash in bytes. -/
  length : Nat
  deriving DecidableEq, Repr

namespace Parameters

/-- Columns of a quarter of a lane. -/
def segment (parameters : Parameters) : Nat :=
  parameters.memory / (4 * parameters.lanes)

/-- Columns of a lane. -/
def columns (parameters : Parameters) : Nat :=
  4 * parameters.segment

/-- Blocks in use. -/
def blocks (parameters : Parameters) : Nat :=
  parameters.lanes * parameters.columns

end Parameters

/-! ### Digests of any length -/

/-- Bytes with their count in front. -/
def counted (bytes : List UInt8) : List UInt8 :=
  littleEndian 4 bytes.length ++ bytes

/-- The half digests of so many links of a chain, and the digest that goes on with it. -/
def chain : Nat → List UInt8 → List UInt8 × List UInt8
  | 0, link => ([], link)
  | count + 1, link =>
    let (halves, last) := chain count (Blake2b.digest 64 link)
    (link.take 32 ++ halves, last)

/-- A digest of any length. -/
def longDigest (length : Nat) (bytes : List UInt8) : List UInt8 :=
  let start := littleEndian 4 length ++ bytes
  if length ≤ 64 then Blake2b.digest length start
  else
    let links := (length + 31) / 32 - 2
    let (halves, last) := chain (links - 1) (Blake2b.digest 64 start)
    halves ++ last.take 32 ++ Blake2b.digest (length - 32 * links) last

/-! ### Filling the memory -/

/-- The digest that everything starts from. -/
def seed (parameters : Parameters) (password : List UInt8) : List UInt8 :=
  let number (value : Nat) := littleEndian 4 value
  Blake2b.digest 64 (number parameters.lanes ++ number parameters.length ++
    number parameters.memory ++ number parameters.passes ++ number parameters.version.number ++
    number parameters.variant.number ++ counted password ++ counted parameters.salt ++
    counted [] ++ counted parameters.associated)

/-- The block at the start of a lane. -/
def firstBlock (seed : List UInt8) (column lane : Nat) : Block :=
  .ofList (Blake2b.words 128 (longDigest 1024 (seed ++ littleEndian 4 column ++
    littleEndian 4 lane)))

/-- A place to be filled. -/
structure Place where
  pass : Nat
  slice : Nat
  lane : Nat
  /-- The column within the slice. -/
  index : Nat
  deriving DecidableEq, Repr

/-- Whether blocks are chosen by a counter at a place. -/
def Parameters.countsAt (parameters : Parameters) (place : Place) : Bool :=
  match parameters.variant with
  | .dependent => false
  | .independent => true
  | .hybrid => place.pass == 0 && place.slice < 2

/-- The pseudorandom words of a slice that are drawn from a counter, 128 to a block. -/
def counterBlock (parameters : Parameters) (pass slice lane counter : Nat) : Block :=
  let input := Block.ofList ([pass, lane, slice, parameters.blocks, parameters.passes,
    parameters.variant.number, counter].map UInt64.ofNat)
  Block.zero.compress (Block.zero.compress input)

/-- How many blocks can be chosen from. -/
def Parameters.reach (parameters : Parameters) (place : Place) (sameLane : Bool) : Nat :=
  let finished :=
    if place.pass = 0 then place.slice * parameters.segment
    else parameters.columns - parameters.segment
  if sameLane then finished + place.index - 1
  else if place.index = 0 then finished - 1 else finished

/-- The lane and column that a pseudorandom word chooses. -/
def Parameters.choose (parameters : Parameters) (place : Place) (random : UInt64) : Nat × Nat :=
  let high := (random >>> 32).toNat
  let low := (random &&& 0xffffffff).toNat
  let lane :=
    if place.pass = 0 ∧ place.slice = 0 then place.lane else high % parameters.lanes
  let reach := parameters.reach place (lane == place.lane)
  let back := reach * (low * low / 4294967296) / 4294967296
  let start :=
    if place.pass = 0 ∨ place.slice = 3 then 0 else (place.slice + 1) * parameters.segment
  (lane, (start + (reach - 1 - back)) % parameters.columns)

/-- Fills one place. -/
def fill (parameters : Parameters) (counters : Array Block) (place : Place)
    (memory : Array Block) : Array Block :=
  let column := place.slice * parameters.segment + place.index
  let base := place.lane * parameters.columns
  let before := if column = 0 then parameters.columns - 1 else column - 1
  let previous := memory.getD (base + before) .zero
  let random :=
    if parameters.countsAt place then
      (counters.getD (place.index / 128) .zero).toList.getD (place.index % 128) 0
    else previous.r0.w0
  let (lane, chosen) := parameters.choose place random
  let fresh := previous.compress (memory.getD (lane * parameters.columns + chosen) .zero)
  let filled :=
    if place.pass = 0 ∨ parameters.version = .overwriting then fresh
    else fresh.xor (memory.getD (base + column) .zero)
  memory.setIfInBounds (base + column) filled

/-- Fills a slice of a lane. -/
def fillSegment (parameters : Parameters) (pass slice lane : Nat) (memory : Array Block) :
    Array Block :=
  let counters :=
    if parameters.countsAt ⟨pass, slice, lane, 0⟩ then
      (Array.range ((parameters.segment + 127) / 128)).map fun i =>
        counterBlock parameters pass slice lane (i + 1)
    else #[]
  let skipped := if pass = 0 ∧ slice = 0 then 2 else 0
  Nat.fold (parameters.segment - skipped)
    (fun i _ memory => fill parameters counters ⟨pass, slice, lane, i + skipped⟩ memory) memory

/-- The memory after all passes. -/
def filledMemory (parameters : Parameters) (password : List UInt8) : Array Block :=
  let seed := seed parameters password
  let memory := Array.replicate parameters.blocks Block.zero
  let memory := Nat.fold parameters.lanes (fun lane _ memory =>
    let base := lane * parameters.columns
    (memory.setIfInBounds base (firstBlock seed 0 lane)).setIfInBounds (base + 1)
      (firstBlock seed 1 lane)) memory
  Nat.fold parameters.passes (fun pass _ memory =>
    Nat.fold 4 (fun slice _ memory =>
      Nat.fold parameters.lanes (fun lane _ memory =>
        fillSegment parameters pass slice lane memory) memory) memory) memory

/-- The hash of a password. -/
def argon2 (parameters : Parameters) (password : List UInt8) : List UInt8 :=
  let memory := filledMemory parameters password
  let last := Nat.fold parameters.lanes (fun lane _ (block : Block) =>
    block.xor (memory.getD (lane * parameters.columns + parameters.columns - 1) .zero)) .zero
  longDigest parameters.length (last.toList.flatMap fun value => littleEndian 8 value.toNat)

end Zonecast.Password
