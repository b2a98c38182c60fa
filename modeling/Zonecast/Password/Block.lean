/-
The memory blocks of Argon2 (RFC 9106): 1024 bytes, as eight rows of sixteen words. Two blocks are
compressed into one by permuting the rows and then the columns of their difference.
-/
import Zonecast.Password.Blake2b

namespace Zonecast.Password

/-- Sixteen words. -/
structure Row where
  w0 : UInt64
  w1 : UInt64
  w2 : UInt64
  w3 : UInt64
  w4 : UInt64
  w5 : UInt64
  w6 : UInt64
  w7 : UInt64
  w8 : UInt64
  w9 : UInt64
  w10 : UInt64
  w11 : UInt64
  w12 : UInt64
  w13 : UInt64
  w14 : UInt64
  w15 : UInt64
  deriving Inhabited

/-- Eight rows. -/
structure Block where
  r0 : Row
  r1 : Row
  r2 : Row
  r3 : Row
  r4 : Row
  r5 : Row
  r6 : Row
  r7 : Row
  deriving Inhabited

namespace Row

/-- The words in order. -/
def toList (row : Row) : List UInt64 :=
  [row.w0, row.w1, row.w2, row.w3, row.w4, row.w5, row.w6, row.w7, row.w8, row.w9, row.w10,
    row.w11, row.w12, row.w13, row.w14, row.w15]

/-- The first sixteen of some words; missing ones are zero. -/
def ofList (words : List UInt64) : Row :=
  let at' (i : Nat) : UInt64 := words.getD i 0
  ⟨at' 0, at' 1, at' 2, at' 3, at' 4, at' 5, at' 6, at' 7, at' 8, at' 9, at' 10, at' 11, at' 12,
    at' 13, at' 14, at' 15⟩

/-- Word by word, the difference in single bits. -/
def xor (a b : Row) : Row :=
  ⟨a.w0 ^^^ b.w0, a.w1 ^^^ b.w1, a.w2 ^^^ b.w2, a.w3 ^^^ b.w3, a.w4 ^^^ b.w4, a.w5 ^^^ b.w5,
    a.w6 ^^^ b.w6, a.w7 ^^^ b.w7, a.w8 ^^^ b.w8, a.w9 ^^^ b.w9, a.w10 ^^^ b.w10,
    a.w11 ^^^ b.w11, a.w12 ^^^ b.w12, a.w13 ^^^ b.w13, a.w14 ^^^ b.w14, a.w15 ^^^ b.w15⟩

/-- A sum that also takes twice the product of the low halves. -/
@[inline] def addMultiplied (a b : UInt64) : UInt64 :=
  a + b + 2 * ((a &&& 0xffffffff) * (b &&& 0xffffffff))

/-- Mixes four words and goes on with what they become. -/
@[inline] def mixing {α : Type} (a b c d : UInt64)
    (next : UInt64 → UInt64 → UInt64 → UInt64 → α) : α :=
  let a := addMultiplied a b
  let d := Blake2b.rotate (d ^^^ a) 32
  let c := addMultiplied c d
  let b := Blake2b.rotate (b ^^^ c) 24
  let a := addMultiplied a b
  let d := Blake2b.rotate (d ^^^ a) 16
  let c := addMultiplied c d
  let b := Blake2b.rotate (b ^^^ c) 63
  next a b c d

/-- One round over sixteen words: four columns, then four diagonals. -/
def permute (row : Row) : Row :=
  mixing row.w0 row.w4 row.w8 row.w12 fun v0 v4 v8 v12 =>
  mixing row.w1 row.w5 row.w9 row.w13 fun v1 v5 v9 v13 =>
  mixing row.w2 row.w6 row.w10 row.w14 fun v2 v6 v10 v14 =>
  mixing row.w3 row.w7 row.w11 row.w15 fun v3 v7 v11 v15 =>
  mixing v0 v5 v10 v15 fun v0 v5 v10 v15 =>
  mixing v1 v6 v11 v12 fun v1 v6 v11 v12 =>
  mixing v2 v7 v8 v13 fun v2 v7 v8 v13 =>
  mixing v3 v4 v9 v14 fun v3 v4 v9 v14 =>
  ⟨v0, v1, v2, v3, v4, v5, v6, v7, v8, v9, v10, v11, v12, v13, v14, v15⟩

end Row

namespace Block

/-- The words in order. -/
def toList (block : Block) : List UInt64 :=
  block.r0.toList ++ block.r1.toList ++ block.r2.toList ++ block.r3.toList ++ block.r4.toList ++
    block.r5.toList ++ block.r6.toList ++ block.r7.toList

/-- The first 128 of some words; missing ones are zero. -/
def ofList (words : List UInt64) : Block :=
  let row (i : Nat) := Row.ofList (words.drop (16 * i))
  ⟨row 0, row 1, row 2, row 3, row 4, row 5, row 6, row 7⟩

/-- The block of zeros. -/
def zero : Block := ofList []

/-- Row by row, the difference in single bits. -/
def xor (a b : Block) : Block :=
  ⟨a.r0.xor b.r0, a.r1.xor b.r1, a.r2.xor b.r2, a.r3.xor b.r3, a.r4.xor b.r4, a.r5.xor b.r5,
    a.r6.xor b.r6, a.r7.xor b.r7⟩

/-- Permutes every row. -/
def permuteRows (block : Block) : Block :=
  ⟨block.r0.permute, block.r1.permute, block.r2.permute, block.r3.permute, block.r4.permute,
    block.r5.permute, block.r6.permute, block.r7.permute⟩

/-- Turns rows of word pairs into columns. -/
def transpose (b : Block) : Block :=
  ⟨⟨b.r0.w0, b.r0.w1, b.r1.w0, b.r1.w1, b.r2.w0, b.r2.w1, b.r3.w0, b.r3.w1,
      b.r4.w0, b.r4.w1, b.r5.w0, b.r5.w1, b.r6.w0, b.r6.w1, b.r7.w0, b.r7.w1⟩,
    ⟨b.r0.w2, b.r0.w3, b.r1.w2, b.r1.w3, b.r2.w2, b.r2.w3, b.r3.w2, b.r3.w3,
      b.r4.w2, b.r4.w3, b.r5.w2, b.r5.w3, b.r6.w2, b.r6.w3, b.r7.w2, b.r7.w3⟩,
    ⟨b.r0.w4, b.r0.w5, b.r1.w4, b.r1.w5, b.r2.w4, b.r2.w5, b.r3.w4, b.r3.w5,
      b.r4.w4, b.r4.w5, b.r5.w4, b.r5.w5, b.r6.w4, b.r6.w5, b.r7.w4, b.r7.w5⟩,
    ⟨b.r0.w6, b.r0.w7, b.r1.w6, b.r1.w7, b.r2.w6, b.r2.w7, b.r3.w6, b.r3.w7,
      b.r4.w6, b.r4.w7, b.r5.w6, b.r5.w7, b.r6.w6, b.r6.w7, b.r7.w6, b.r7.w7⟩,
    ⟨b.r0.w8, b.r0.w9, b.r1.w8, b.r1.w9, b.r2.w8, b.r2.w9, b.r3.w8, b.r3.w9,
      b.r4.w8, b.r4.w9, b.r5.w8, b.r5.w9, b.r6.w8, b.r6.w9, b.r7.w8, b.r7.w9⟩,
    ⟨b.r0.w10, b.r0.w11, b.r1.w10, b.r1.w11, b.r2.w10, b.r2.w11, b.r3.w10, b.r3.w11,
      b.r4.w10, b.r4.w11, b.r5.w10, b.r5.w11, b.r6.w10, b.r6.w11, b.r7.w10, b.r7.w11⟩,
    ⟨b.r0.w12, b.r0.w13, b.r1.w12, b.r1.w13, b.r2.w12, b.r2.w13, b.r3.w12, b.r3.w13,
      b.r4.w12, b.r4.w13, b.r5.w12, b.r5.w13, b.r6.w12, b.r6.w13, b.r7.w12, b.r7.w13⟩,
    ⟨b.r0.w14, b.r0.w15, b.r1.w14, b.r1.w15, b.r2.w14, b.r2.w15, b.r3.w14, b.r3.w15,
      b.r4.w14, b.r4.w15, b.r5.w14, b.r5.w15, b.r6.w14, b.r6.w15, b.r7.w14, b.r7.w15⟩⟩

/-- Compresses two blocks into one. -/
def compress (first second : Block) : Block :=
  let difference := first.xor second
  ((difference.permuteRows.transpose).permuteRows.transpose).xor difference

end Block

end Zonecast.Password
