/-
Characters as bytes of UTF-8. Decoding comes in two strengths: the strict one fails at the first
byte that belongs to no character, the lenient one puts the replacement character for each
maximal stretch of bytes that begins a character but does not finish one, and for every byte that
begins none.
-/

namespace Zonecast.Text

/-- The bytes of a text. -/
def utf8 (text : String) : List UInt8 :=
  text.toUTF8.toList

/-- How a first byte begins a character: the number of bytes that follow it, the bits it gives,
and the range of its second byte. The range shuts out overlong forms, surrogates and values past
the last character. -/
def utf8Lead? (byte : UInt8) : Option (Nat × Nat × UInt8 × UInt8) :=
  if byte < 0x80 then some (0, byte.toNat, 0, 0)
  else if byte < 0xc2 then none
  else if byte < 0xe0 then some (1, byte.toNat - 0xc0, 0x80, 0xbf)
  else if byte = 0xe0 then some (2, 0, 0xa0, 0xbf)
  else if byte = 0xed then some (2, 13, 0x80, 0x9f)
  else if byte < 0xf0 then some (2, byte.toNat - 0xe0, 0x80, 0xbf)
  else if byte = 0xf0 then some (3, 0, 0x90, 0xbf)
  else if byte < 0xf4 then some (3, byte.toNat - 0xf0, 0x80, 0xbf)
  else if byte = 0xf4 then some (3, 4, 0x80, 0x8f)
  else none

/-- Takes the following bytes of a character; answers the value if all are there, and the bytes
left. The range is that of the next byte. -/
def utf8Follow : Nat → Nat → UInt8 → UInt8 → List UInt8 → Option Nat × List UInt8
  | 0, value, _, _, rest => (some value, rest)
  | _ + 1, _, _, _, [] => (none, [])
  | left + 1, value, low, high, byte :: rest =>
    if low ≤ byte && byte ≤ high then
      utf8Follow left (value * 64 + (byte.toNat - 0x80)) 0x80 0xbf rest
    else (none, byte :: rest)

/-- Following bytes only shorten what is left. -/
theorem utf8Follow_length (left value : Nat) (low high : UInt8) (bytes : List UInt8) :
    (utf8Follow left value low high bytes).2.length ≤ bytes.length := by
  induction left generalizing value low high bytes with
  | zero => simp [utf8Follow]
  | succ left inductionHypothesis =>
    cases bytes with
    | nil => simp [utf8Follow]
    | cons byte rest =>
      rw [utf8Follow]
      split
      · have shorter := inductionHypothesis (value * 64 + (byte.toNat - 0x80)) 0x80 0xbf rest
        simp only [List.length_cons]
        omega
      · simp

/-- The characters of a byte sequence, `none` standing for a stretch that is no character. -/
def utf8Chars : List UInt8 → List (Option Char)
  | [] => []
  | byte :: rest =>
    match utf8Lead? byte with
    | none => none :: utf8Chars rest
    | some (following, bits, low, high) =>
      (utf8Follow following bits low high rest).1.map Char.ofNat ::
        utf8Chars (utf8Follow following bits low high rest).2
termination_by bytes => bytes.length
decreasing_by
  · simp
  · have shorter := utf8Follow_length following bits low high rest
    simp only [List.length_cons]
    omega

/-- The text of a byte sequence, if every byte belongs to a character. -/
def ofUtf8? (bytes : List UInt8) : Option (List Char) :=
  (utf8Chars bytes).mapM id

/-- The text of a byte sequence, with the replacement character for what is no character. -/
def ofUtf8Lossy (bytes : List UInt8) : List Char :=
  (utf8Chars bytes).map fun c => c.getD '\ufffd'

end Zonecast.Text
