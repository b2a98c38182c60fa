/-
Decimal text of positive binary floating point numbers, from products of 64 bits. A number and the
points halfway to its neighbours are multiplied by one power of ten, so chosen that the products
have between one and nine decimal digits before the point. The products are rounded; drawn in by
one unit each, the two ends still enclose nothing but decimals that read back.

Digits are taken from the upper end, from the left, until what is left of it is no more than the
distance between the ends. The last digit is then lowered as long as that leads closer to the
number. A last digit in the ninth place after the point or beyond is not lowered, so the decimal
is not always the nearest of its length.
-/

namespace Zonecast.Decimal

/-! ### Binary numbers -/

/-- The number `significand * 2 ^ exponent`. -/
structure Binary where
  significand : Nat
  exponent : Int
  deriving DecidableEq, Repr

namespace Binary

/-- The value of a positive finite number. -/
def ofFloat (number : Float) : Binary :=
  let bits := number.toBits.toNat
  let written := bits % 4503599627370496
  let scale := bits / 4503599627370496 % 2048
  if scale = 0 then ⟨written, -1074⟩ else ⟨written + 4503599627370496, scale - 1075⟩

/-- The same number with a smaller exponent. -/
def withExponent (exponent : Int) (number : Binary) : Binary :=
  ⟨number.significand * Nat.pow 2 (number.exponent - exponent).toNat, exponent⟩

/-- The same number with a significand of 64 bits, if it has no more. -/
def normal (number : Binary) : Binary :=
  number.withExponent (number.exponent - (63 - number.significand.log2 : Nat))

/-- The point halfway to the next number. -/
def halfwayUp (number : Binary) : Binary :=
  ⟨2 * number.significand + 1, number.exponent - 1⟩

/-- The point halfway to the number before, which is nearer where the exponent changes. -/
def halfwayDown (number : Binary) : Binary :=
  if number.significand = 4503599627370496 then ⟨4 * number.significand - 1, number.exponent - 2⟩
  else ⟨2 * number.significand - 1, number.exponent - 1⟩

/-- The product of two numbers of 64 bits, rounded to as many, a half going up. -/
def product (first second : Binary) : Binary :=
  ⟨(first.significand * second.significand + 9223372036854775808) / 18446744073709551616,
    first.exponent + second.exponent + 64⟩

/-- The power of ten, rounded to 64 bits. -/
def powerOfTen (power : Int) : Binary :=
  let tens := Nat.pow 10 power.natAbs
  if 0 ≤ power then
    if tens.log2 ≤ 63 then normal ⟨tens, 0⟩
    else
      let surplus := tens.log2 - 63
      ⟨(tens / Nat.pow 2 (surplus - 1) + 1) / 2, surplus⟩
  else
    let places := tens.log2 + 64
    ⟨(Nat.pow 2 (places + 1) / tens + 1) / 2, -places⟩

/-- The power of ten that brings numbers of 64 bits with this exponent to at least four and to less
than a thousand million. The powers in use are eight apart. -/
def scalingPower (exponent : Int) : Int :=
  let least := -((61 + exponent) * 30103 / 100000)
  (least + 3) / 8 * 8 + 4

end Binary

/-! ### Decimals -/

/-- The decimal `digits * 10 ^ exponent`. -/
structure Scientific where
  digits : Nat
  exponent : Int
  deriving DecidableEq, Repr

/-- An interval around a number, in units of `2 ^ -places`. -/
structure Enclosure where
  highest : Nat
  /-- The distance between the ends. -/
  width : Nat
  /-- The distance from the number to the upper end. -/
  above : Nat
  places : Nat
  deriving DecidableEq, Repr

namespace Enclosure

/-- Lowers a last digit while that leads closer to the number and not out of the interval; `rest`
is by how much the digits fall short of the upper end, and `unit` what one step of the last digit
is worth. -/
def lower (width above unit : Nat) : Nat → Nat → Nat → Nat
  | 0, _, digits => digits
  | steps + 1, rest, digits =>
    if rest < above ∧ rest + unit ≤ width ∧
        (rest + unit < above ∨ rest + unit - above < above - rest) then
      lower width above unit steps (rest + unit) (digits - 1)
    else digits

/-- The digits down to this power of ten, if what is left of the upper end is within reach. -/
def whole? (enclosure : Enclosure) (power : Nat) : Option Scientific :=
  let unit := Nat.pow 10 power * Nat.pow 2 enclosure.places
  let digits := enclosure.highest / unit
  let rest := enclosure.highest % unit
  if rest ≤ enclosure.width then
    some ⟨lower enclosure.width enclosure.above unit (digits % 10) rest digits, power⟩
  else none

/-- The digits up to this place after the point, if what is left of the upper end is within
reach. -/
def fraction? (enclosure : Enclosure) (place : Nat) : Option Scientific :=
  let scale := Nat.pow 10 place
  let unit := Nat.pow 2 enclosure.places
  let digits := enclosure.highest * scale / unit
  let rest := enclosure.highest * scale % unit
  let width := enclosure.width * scale
  let above := if place < 9 then enclosure.above * scale else 0
  if rest < width then some ⟨lower width above unit (digits % 10) rest digits, -place⟩ else none

/-- The digits up to the first place at which what is left is within reach. -/
def decimal (enclosure : Enclosure) : Scientific :=
  let whole := [8, 7, 6, 5, 4, 3, 2, 1, 0].findSome? enclosure.whole?
  let fraction := (List.range 20).findSome? fun place => enclosure.fraction? (place + 1)
  ((whole <|> fraction).getD ⟨0, 0⟩)

end Enclosure

/-- A short decimal that reads back as a positive finite number. -/
def Scientific.ofFloat (number : Float) : Scientific :=
  let value := Binary.ofFloat number
  let highest := value.halfwayUp.normal
  let power := Binary.scalingPower highest.exponent
  let scaled (point : Binary) : Binary := point.product (Binary.powerOfTen power)
  let upper := scaled highest
  let lower := scaled (value.halfwayDown.withExponent highest.exponent)
  let decimal := Enclosure.decimal
    { highest := upper.significand - 1
      width := upper.significand - lower.significand - 2
      above := upper.significand - 1 - (scaled value.normal).significand
      places := (-upper.exponent).toNat }
  { decimal with exponent := decimal.exponent - power }

/-! ### Text -/

/-- Writes a number with at least one digit on either side of the point; with an exponent when the
point lies more than 21 places after the first digit, or more than five zeros before it. -/
def text (number : Float) : String :=
  if number == 0 then "0.0"
  else
    let decimal := Scientific.ofFloat number
    let digits := (toString decimal.digits).toList
    let point := digits.length + decimal.exponent
    let zeros (count : Int) := List.replicate count.toNat '0'
    if 21 < point ∨ point ≤ -6 then
      let fraction := if digits.length ≤ 1 then [] else '.' :: digits.drop 1
      String.ofList (digits.take 1 ++ fraction ++ ['e']) ++ toString (point - 1)
    else if point ≤ 0 then String.ofList (['0', '.'] ++ zeros (-point) ++ digits)
    else if digits.length ≤ point then
      String.ofList (digits ++ zeros (point - digits.length) ++ ['.', '0'])
    else String.ofList (digits.take point.toNat ++ ['.'] ++ digits.drop point.toNat)

end Zonecast.Decimal
