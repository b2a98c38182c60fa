/-
Text through bytes and back. Every character is read from the bytes it is written as, whatever
follows them: its first byte tells how many follow, and the range that the first byte leaves for
the second is the one that characters of this length and no surrogates have. So a text is decoded
from its bytes as it was, by the lenient reader too.

Form-encoded text holds letters, digits and a few marks only, so a byte of it is a character, and
no name or value holds one of the separators. Pairs are therefore cut where they were joined.
-/
import Mathlib.Tactic.IntervalCases
import Zonecast.Proofs.Names
import Zonecast.Proofs.Pieces
import Zonecast.Text.Urlencoded

namespace Zonecast.Text

/-! ### The bytes of a text -/

theorem toList_loop_eq (bytes : ByteArray) (index : Nat) (before : List UInt8) :
    ByteArray.toList.loop bytes index before =
      before.reverse ++ bytes.data.toList.drop index := by
  fun_induction ByteArray.toList.loop bytes index before with
  | case1 index before inside inductionHypothesis =>
    have present : index < bytes.data.toList.length := inside
    have byte : bytes.get! index = bytes.data.toList[index] := getElem!_pos bytes.data index inside
    rw [inductionHypothesis, List.reverse_cons, List.append_assoc, List.singleton_append, byte,
      List.drop_eq_getElem_cons present]
  | case2 index before outside =>
    have past : bytes.data.toList.length ≤ index := Nat.not_lt.mp outside
    rw [List.drop_eq_nil_of_le past, List.append_nil]

/-- The bytes of a text are those of its characters. -/
theorem utf8_ofList (text : List Char) :
    utf8 (String.ofList text) = text.flatMap String.utf8EncodeChar := by
  rw [utf8, String.toUTF8_eq_toByteArray, String.toByteArray_ofList, ByteArray.toList,
    toList_loop_eq, List.utf8Encode, List.toList_data_toByteArray]
  rfl

/-! ### Characters -/

section Characters

/-- The first byte of a character, by its number. -/
theorem utf8Lead?_ofNat (code : Nat) (small : code < 256) :
    utf8Lead? (UInt8.ofNat code) =
      if code < 0x80 then some (0, code, 0, 0)
      else if code < 0xc2 then none
      else if code < 0xe0 then some (1, code - 0xc0, 0x80, 0xbf)
      else if code = 0xe0 then some (2, 0, 0xa0, 0xbf)
      else if code = 0xed then some (2, 13, 0x80, 0x9f)
      else if code < 0xf0 then some (2, code - 0xe0, 0x80, 0xbf)
      else if code = 0xf0 then some (3, 0, 0x90, 0xbf)
      else if code < 0xf4 then some (3, code - 0xf0, 0x80, 0xbf)
      else if code = 0xf4 then some (3, 4, 0x80, 0x8f)
      else none := by
  have number : (UInt8.ofNat code).toNat = code := UInt8.toNat_ofNat_of_lt' small
  have same : ∀ other : UInt8, UInt8.ofNat code = other ↔ code = other.toNat := by
    intro other
    rw [← UInt8.toNat_inj, number]
  simp only [utf8Lead?, UInt8.lt_iff_toNat_lt, same, number]
  rfl

/-- A byte in the range that may follow adds six bits. -/
theorem utf8Follow_ofNat {left value bits : Nat} {low high : UInt8} {rest : List UInt8}
    (least : low.toNat ≤ bits + 0x80) (most : bits + 0x80 ≤ high.toNat) :
    utf8Follow (left + 1) value low high (UInt8.ofNat (bits + 0x80) :: rest) =
      utf8Follow left (value * 64 + bits) 0x80 0xbf rest := by
  have number : (UInt8.ofNat (bits + 0x80)).toNat = bits + 0x80 :=
    UInt8.toNat_ofNat_of_lt' (Nat.lt_of_le_of_lt most high.toNat_lt)
  have within : (low ≤ UInt8.ofNat (bits + 0x80) && UInt8.ofNat (bits + 0x80) ≤ high) = true := by
    rw [Bool.and_eq_true, decide_eq_true_eq, decide_eq_true_eq, UInt8.le_iff_toNat_le,
      UInt8.le_iff_toNat_le, number]
    exact ⟨least, most⟩
  rw [utf8Follow, if_pos within, number, Nat.add_sub_cancel]

/-- Any six bits may follow where the range is not narrowed. -/
theorem utf8Follow_tail {left value bits : Nat} {rest : List UInt8} (six : bits < 64) :
    utf8Follow (left + 1) value 0x80 0xbf (UInt8.ofNat (bits + 0x80) :: rest) =
      utf8Follow left (value * 64 + bits) 0x80 0xbf rest :=
  utf8Follow_ofNat (show 128 ≤ bits + 128 by omega) (show bits + 128 ≤ 191 by omega)

/-- A first byte with what has to follow it is a character. -/
theorem utf8Chars_cons {byte low high : UInt8} {following bits value : Nat} {rest left : List UInt8}
    (lead : utf8Lead? byte = some (following, bits, low, high))
    (follow : utf8Follow following bits low high rest = (some value, left)) :
    utf8Chars (byte :: rest) = some (Char.ofNat value) :: utf8Chars left := by
  rw [utf8Chars, lead]
  dsimp only
  rw [follow]
  rfl

/-- The first of three bytes leaves the second the range that is no shorter form and no
surrogate. -/
theorem exists_utf8Lead?_three {bits more : Nat} (short : bits < 16) (six : more < 64)
    (long : bits = 0 → 32 ≤ more) (plain : bits = 13 → more < 32) :
    ∃ low high, utf8Lead? (UInt8.ofNat (bits + 0xe0)) = some (2, bits, low, high) ∧
      low.toNat ≤ more + 0x80 ∧ more + 0x80 ≤ high.toNat := by
  rw [utf8Lead?_ofNat _ (by omega), if_neg (by omega), if_neg (by omega), if_neg (by omega)]
  by_cases first : bits = 0
  · subst first
    have least := long rfl
    exact ⟨0xa0, 0xbf, rfl, show 160 ≤ more + 128 by omega, show more + 128 ≤ 191 by omega⟩
  · by_cases surrogate : bits = 13
    · subst surrogate
      have most := plain rfl
      exact ⟨0x80, 0x9f, rfl, show 128 ≤ more + 128 by omega, show more + 128 ≤ 159 by omega⟩
    · rw [if_neg (by omega), if_neg (by omega), if_pos (by omega), Nat.add_sub_cancel]
      exact ⟨0x80, 0xbf, rfl, show 128 ≤ more + 128 by omega, show more + 128 ≤ 191 by omega⟩

/-- The first of four bytes leaves the second the range that is no shorter form and not past the
last character. -/
theorem exists_utf8Lead?_four {bits more : Nat} (short : bits ≤ 4) (six : more < 64)
    (long : bits = 0 → 16 ≤ more) (last : bits = 4 → more < 16) :
    ∃ low high, utf8Lead? (UInt8.ofNat (bits + 0xf0)) = some (3, bits, low, high) ∧
      low.toNat ≤ more + 0x80 ∧ more + 0x80 ≤ high.toNat := by
  rw [utf8Lead?_ofNat _ (by omega), if_neg (by omega), if_neg (by omega), if_neg (by omega),
    if_neg (by omega), if_neg (by omega), if_neg (by omega)]
  by_cases first : bits = 0
  · subst first
    have least := long rfl
    exact ⟨0x90, 0xbf, rfl, show 144 ≤ more + 128 by omega, show more + 128 ≤ 191 by omega⟩
  · by_cases past : bits = 4
    · subst past
      have most := last rfl
      exact ⟨0x80, 0x8f, rfl, show 128 ≤ more + 128 by omega, show more + 128 ≤ 143 by omega⟩
    · rw [if_neg (by omega), if_pos (by omega), Nat.add_sub_cancel]
      exact ⟨0x80, 0xbf, rfl, show 128 ≤ more + 128 by omega, show more + 128 ≤ 191 by omega⟩

/-- A character is read from its bytes. -/
theorem utf8Chars_utf8EncodeChar (c : Char) (rest : List UInt8) :
    utf8Chars (String.utf8EncodeChar c ++ rest) = some c :: utf8Chars rest := by
  have valid : c.toNat < 0xd800 ∨ 0xdfff < c.toNat ∧ c.toNat < 0x110000 := c.valid
  have whole : Char.ofNat c.toNat = c := Char.ofNat_toNat c
  have own : c.val.toNat = c.toNat := rfl
  have last : c.toNat % 64 < 64 := Nat.mod_lt _ (by decide)
  have second : c.toNat / 64 % 64 < 64 := Nat.mod_lt _ (by decide)
  have third : c.toNat / 4096 % 64 < 64 := Nat.mod_lt _ (by decide)
  unfold String.utf8EncodeChar
  rw [own]
  generalize c.toNat = code at valid whole last second third
  subst whole
  dsimp only
  split
  case isTrue one =>
    have lead : utf8Lead? (UInt8.ofNat code) = some (0, code, 0, 0) := by
      rw [utf8Lead?_ofNat _ (by omega), if_pos (by omega)]
    exact utf8Chars_cons lead rfl
  case isFalse notOne =>
    split
    case isTrue two =>
      have lead : utf8Lead? (UInt8.ofNat (code / 64 % 32 + 0xc0)) =
          some (1, code / 64 % 32, 0x80, 0xbf) := by
        rw [utf8Lead?_ofNat _ (by omega), if_neg (by omega), if_neg (by omega), if_pos (by omega),
          Nat.add_sub_cancel]
      have sum : code / 64 % 32 * 64 + code % 64 = code := by omega
      rw [List.cons_append, List.singleton_append]
      refine utf8Chars_cons lead ?_
      rw [utf8Follow_tail last, utf8Follow, sum]
    case isFalse notTwo =>
      split
      case isTrue three =>
        obtain ⟨low, high, lead, least, most⟩ := exists_utf8Lead?_three
          (Nat.mod_lt (code / 4096) (by decide)) second (by omega) (by omega)
        have sum : (code / 4096 % 16 * 64 + code / 64 % 64) * 64 + code % 64 = code := by omega
        rw [List.cons_append, List.cons_append, List.singleton_append]
        refine utf8Chars_cons lead ?_
        rw [utf8Follow_ofNat least most, utf8Follow_tail last, utf8Follow, sum]
      case isFalse notThree =>
        obtain ⟨low, high, lead, least, most⟩ := exists_utf8Lead?_four
          (show code / 262144 % 8 ≤ 4 by omega) third (by omega) (by omega)
        have sum : ((code / 262144 % 8 * 64 + code / 4096 % 64) * 64 + code / 64 % 64) * 64 +
            code % 64 = code := by omega
        rw [List.cons_append, List.cons_append, List.cons_append, List.singleton_append]
        refine utf8Chars_cons lead ?_
        rw [utf8Follow_ofNat least most, utf8Follow_tail second, utf8Follow_tail last, utf8Follow,
          sum]

end Characters

theorem utf8Chars_flatMap (text : List Char) :
    utf8Chars (text.flatMap String.utf8EncodeChar) = text.map some := by
  induction text with
  | nil => rw [List.flatMap_nil, utf8Chars, List.map_nil]
  | cons c rest inductionHypothesis =>
    rw [List.flatMap_cons, utf8Chars_utf8EncodeChar, inductionHypothesis, List.map_cons]

/-- The bytes of a text are decoded to it. -/
theorem ofUtf8Lossy_utf8 (text : String) : ofUtf8Lossy (utf8 text) = text.toList := by
  have bytes := utf8_ofList text.toList
  rw [String.ofList_toList] at bytes
  rw [ofUtf8Lossy, bytes, utf8Chars_flatMap, List.map_map]
  exact List.map_id _

/-- A character of ASCII is one byte. -/
theorem utf8EncodeChar_of_lt {c : Char} (plain : c.toNat < 128) :
    String.utf8EncodeChar c = [UInt8.ofNat c.toNat] :=
  if_pos (Nat.le_of_lt_succ plain)

theorem utf8_ofList_of_lt {text : List Char} (plain : ∀ c ∈ text, c.toNat < 128) :
    utf8 (String.ofList text) = text.map fun c => UInt8.ofNat c.toNat := by
  rw [utf8_ofList]
  induction text with
  | nil => rfl
  | cons c rest inductionHypothesis =>
    rw [List.flatMap_cons, List.map_cons, utf8EncodeChar_of_lt (plain c List.mem_cons_self),
      inductionHypothesis fun c member => plain c (List.mem_cons_of_mem _ member)]
    rfl

namespace Urlencoded

/-! ### Names and values -/

/-- The characters that form-encoded names and values are written in. -/
def isWritten (c : Char) : Bool :=
  isLetter c || isDigit c || c == '*' || c == '-' || c == '.' || c == '_' || c == '+' || c == '%'

theorem isWritten_hexDigit {value : Nat} (short : value < 16) :
    isWritten (hexDigit value) = true := by
  interval_cases value <;> decide

theorem hexByte?_hexDigit {value : Nat} (short : value < 16) :
    hexByte? (UInt8.ofNat (hexDigit value).toNat) = some value := by
  interval_cases value <;> decide

theorem isWritten_of_mem_encodeByte {byte : UInt8} {c : Char} (member : c ∈ encodeByte byte) :
    isWritten c = true := by
  have high : byte.toNat / 16 < 16 := Nat.div_lt_of_lt_mul byte.toNat_lt
  have low : byte.toNat % 16 < 16 := Nat.mod_lt _ (by decide)
  unfold encodeByte at member
  split at member
  · rename_i plain
    obtain rfl := List.mem_singleton.mp member
    have marks := (Bool.and_eq_true_iff.mp plain).2
    rw [isWritten, marks]
    rfl
  · split at member
    · obtain rfl := List.mem_singleton.mp member
      decide
    · rcases List.mem_cons.mp member with rfl | more
      · decide
      · rcases List.mem_cons.mp more with rfl | last
        · exact isWritten_hexDigit high
        · obtain rfl := List.mem_singleton.mp last
          exact isWritten_hexDigit low

theorem toNat_lt_of_isWritten {c : Char} (written : isWritten c = true) : c.toNat < 128 := by
  have below : ∀ last : Char, last.toNat < 128 → c ≤ last → c.toNat < 128 :=
    fun last plain within => Nat.lt_of_le_of_lt within plain
  simp only [isWritten, isLetter, isDigit, Bool.or_eq_true, Bool.and_eq_true, decide_eq_true_eq,
    beq_iff_eq] at written
  rcases written with
    (((((((⟨_, small⟩ | ⟨_, capital⟩) | ⟨_, digit⟩) | rfl) | rfl) | rfl) | rfl) | rfl) | rfl
  · exact below 'z' (by decide) small
  · exact below 'Z' (by decide) capital
  · exact below '9' (by decide) digit
  all_goals decide

/-- A byte that begins no code stands for itself. -/
theorem decodeBytes_cons {byte : UInt8} (plus : byte ≠ 43) (percent : byte ≠ 37)
    (rest : List UInt8) : decodeBytes (byte :: rest) = byte :: decodeBytes rest := by
  rw [decodeBytes]
  · exact plus
  · exact fun _ _ _ same _ => percent same

/-- A percent sign and two hexadecimal digits stand for one byte. -/
theorem decodeBytes_percent {first second : UInt8} {upper lower : Nat}
    (high : hexByte? first = some upper) (low : hexByte? second = some lower) (rest : List UInt8) :
    decodeBytes (37 :: first :: second :: rest) =
      UInt8.ofNat (upper * 16 + lower) :: decodeBytes rest := by
  rw [decodeBytes, high, low]

/-- The bytes that a byte is written as are decoded to it. -/
theorem decodeBytes_encodeByte (byte : UInt8) (rest : List UInt8) :
    decodeBytes ((encodeByte byte).map (fun c => UInt8.ofNat c.toNat) ++ rest) =
      byte :: decodeBytes rest := by
  have high : byte.toNat / 16 < 16 := Nat.div_lt_of_lt_mul byte.toNat_lt
  have low : byte.toNat % 16 < 16 := Nat.mod_lt _ (by decide)
  unfold encodeByte
  split
  · rename_i plain
    have ascii : byte.toNat < 128 := of_decide_eq_true (Bool.and_eq_true_iff.mp plain).1
    have plus : byte ≠ 43 := by
      rintro rfl
      exact absurd plain (by decide)
    have percent : byte ≠ 37 := by
      rintro rfl
      exact absurd plain (by decide)
    rw [List.map_singleton, toNat_ofNat_of_lt _ (by omega), UInt8.ofNat_toNat,
      List.singleton_append, decodeBytes_cons plus percent]
  · split
    · rename_i blank
      subst blank
      rfl
    · have whole : byte.toNat / 16 * 16 + byte.toNat % 16 = byte.toNat := Nat.div_add_mod' _ _
      refine (decodeBytes_percent (hexByte?_hexDigit high) (hexByte?_hexDigit low) rest).trans ?_
      rw [whole, UInt8.ofNat_toNat]

theorem decodeBytes_flatMap (bytes : List UInt8) :
    decodeBytes ((bytes.flatMap encodeByte).map fun c => UInt8.ofNat c.toNat) = bytes := by
  induction bytes with
  | nil => rfl
  | cons byte rest inductionHypothesis =>
    rw [List.flatMap_cons, List.map_append, decodeBytes_encodeByte, inductionHypothesis]

theorem isWritten_of_mem_encode {text : String} {c : Char} (member : c ∈ (encode text).toList) :
    isWritten c = true := by
  rw [encode, String.toList_ofList] at member
  obtain ⟨byte, _, written⟩ := List.mem_flatMap.mp member
  exact isWritten_of_mem_encodeByte written

/-- A name or value is decoded as it was. -/
theorem decode_encode (text : String) : decode (encode text).toList = text := by
  have plain : ∀ c ∈ (encode text).toList, c.toNat < 128 :=
    fun c member => toNat_lt_of_isWritten (isWritten_of_mem_encode member)
  have bytes : decodeBytes (utf8 (String.ofList (encode text).toList)) = utf8 text := by
    rw [utf8_ofList_of_lt plain, encode, String.toList_ofList, decodeBytes_flatMap]
  rw [decode, bytes, ofUtf8Lossy_utf8, String.ofList_toList]

/-! ### Pairs -/

theorem not_mem_encode {c : Char} (foreign : isWritten c = false) (text : String) :
    c ∉ (encode text).toList := fun member => by
  rw [isWritten_of_mem_encode member] at foreign
  cases foreign

/-- A pair is read as it was written. -/
theorem decodePair_encode (name value : String) :
    decodePair (encode name ++ "=" ++ encode value).toList = (name, value) := by
  have equals : "=".toList = ['='] := rfl
  have clean : ∀ c ∈ (encode name).toList, (c != '=') = true := by
    intro c member
    rw [bne_iff_ne]
    rintro rfl
    exact not_mem_encode (by decide) name member
  rw [String.toList_append, String.toList_append, equals, List.append_assoc, List.singleton_append,
    decodePair, List.takeWhile_append_of_pos clean, List.dropWhile_append_of_pos clean,
    List.takeWhile_cons_of_neg (by decide), List.dropWhile_cons_of_neg (by decide),
    List.append_nil, List.drop_one, List.tail_cons, decode_encode, decode_encode]

/-- Pairs are read as they were written. -/
theorem decodePairs_encodePairs (pairs : List (String × String)) (some : pairs ≠ []) :
    decodePairs (encodePairs pairs) = pairs := by
  let written := pairs.map fun pair => (encode pair.1 ++ "=" ++ encode pair.2).toList
  have equals : "=".toList = ['='] := rfl
  have joined : (encodePairs pairs).toList = joinPieces '&' written := by
    rw [encodePairs, join, String.toList_ofList, List.map_map]
    rfl
  have clean : ∀ piece ∈ written, '&' ∉ piece := by
    intro piece member held
    obtain ⟨pair, _, rfl⟩ := List.mem_map.mp member
    rw [String.toList_append, String.toList_append, equals, List.mem_append, List.mem_append,
      List.mem_singleton] at held
    rcases held with (inName | same) | inValue
    · exact not_mem_encode (by decide) pair.1 inName
    · exact absurd same (by decide)
    · exact not_mem_encode (by decide) pair.2 inValue
  have filled : ∀ piece ∈ written, (!piece.isEmpty) = true := by
    intro piece member
    obtain ⟨pair, _, rfl⟩ := List.mem_map.mp member
    rw [String.toList_append, String.toList_append, equals, List.append_assoc]
    simp
  rw [decodePairs, joined, pieces_joinPieces '&' written (by simpa [written] using some) clean,
    List.filter_eq_self.mpr filled, List.map_map]
  exact (List.map_congr_left fun pair _ => decodePair_encode pair.1 pair.2).trans (List.map_id _)

end Urlencoded

end Zonecast.Text
