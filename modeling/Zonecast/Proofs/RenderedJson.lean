/-
JSON text is read back as the value that it was written for. The values are those that records are
made of: no number but integers of 64 bits, and no text that denotes none. Each lexeme is read up
to its own end, whatever follows it; only after a number does it matter that a comma or a closing
bracket follows, or nothing. The reader's fuel is never short, for every call of it takes at least
one character.
-/
import Zonecast.Json.Printer
import Zonecast.Json.Reader
import Zonecast.Proofs.AddressTexts
import Zonecast.Proofs.Digits

namespace Zonecast.Json

open Zonecast.Text

/-- A value that can be told from its text. -/
inductive Legible : Json → Prop
  | null : Legible .null
  | bool (value : Bool) : Legible (.bool value)
  | integer (value : Int) (low : -9223372036854775808 ≤ value)
      (high : value < 18446744073709551616) : Legible (.integer value)
  | string (value : String) : Legible (.string value)
  | array (items : List Json) (each : ∀ item ∈ items, Legible item) : Legible (.array items)
  | object (members : List (String × Json)) (each : ∀ member ∈ members, Legible member.2) :
      Legible (.object members)

/-! ### Strings -/

/-- The letter of an escape stands for the character that it was written for. -/
theorem shortEscape?_of_escapeLetter? {c letter : Char} (escaped : escapeLetter? c = some letter) :
    letter ≠ 'u' ∧ shortEscape? letter = some c := by
  unfold escapeLetter? at escaped
  split at escaped <;> cases escaped <;> exact ⟨by decide, rfl⟩

/-- A character without such a letter can stand for itself, if it is no control character. -/
theorem plain_of_escapeLetter? {c : Char} (unescaped : escapeLetter? c = none) :
    c ≠ '"' ∧ c ≠ '\\' := by
  constructor <;> rintro rfl <;> cases unescaped

theorem hexValue?_smallHexDigit (value : Nat) (small : value < 16) :
    hexValue? (smallHexDigit value) = some value := by
  have all : ∀ value : Fin 16, hexValue? (smallHexDigit value) = some value.val := by decide
  exact all ⟨value, small⟩

/-- The four digits of a control character are read as its number. -/
theorem readHex4_control (value : Nat) (control : value < 32) (rest : List Char) :
    readHex4 ('0' :: '0' :: smallHexDigit (value / 16) :: smallHexDigit (value % 16) :: rest) =
      some (value, rest) := by
  have zero : hexValue? '0' = some 0 := rfl
  rw [readHex4, zero, hexValue?_smallHexDigit _ (by omega), hexValue?_smallHexDigit _ (by omega)]
  dsimp only [Option.bind_eq_bind, Option.bind_some]
  rw [show ((0 * 16 + 0) * 16 + value / 16) * 16 + value % 16 = value by omega]
  rfl

/-- A closing quote ends a string. -/
theorem readString_end (fuel : Nat) (soFar rest : List Char) :
    readString (fuel + 1) (some soFar) ('"' :: rest) = some (some soFar.reverse, rest) := by
  rfl

/-- A letter after a backslash is read as what it stands for. -/
theorem readString_letter (fuel : Nat) (soFar : List Char) {c letter : Char} (rest : List Char)
    (short : letter ≠ 'u') (stands : shortEscape? letter = some c) :
    readString (fuel + 1) (some soFar) ('\\' :: letter :: rest) =
      readString fuel (some (c :: soFar)) rest := by
  conv => left; unfold readString
  rw [if_neg (by decide), if_pos (by decide)]
  split
  · contradiction
  · rename_i equal
    cases equal
    exact absurd rfl short
  · rename_i equal
    cases equal
    rw [stands]
    rfl

/-- Four digits after a backslash are read as the control character of that number. -/
theorem readString_control (fuel : Nat) (soFar : List Char) {c : Char} (rest : List Char)
    (control : c.toNat < 32) :
    readString (fuel + 1) (some soFar) ('\\' :: 'u' :: '0' :: '0' ::
        smallHexDigit (c.toNat / 16) :: smallHexDigit (c.toNat % 16) :: rest) =
      readString fuel (some (c :: soFar)) rest := by
  have unit : escapedUnit c.toNat rest = (some c, rest) := by
    unfold escapedUnit
    rw [if_neg (by simp; omega), if_neg (by simp; omega), Char.ofNat_toNat]
  conv => left; unfold readString
  rw [if_neg (by decide), if_pos (by decide)]
  simp only [readHex4_control _ control, unit, Option.map_some]

/-- Every other character is read as itself. -/
theorem readString_plain (fuel : Nat) (soFar : List Char) {c : Char} (rest : List Char)
    (quoted : c ≠ '"') (escaped : c ≠ '\\') (control : ¬ c.toNat < 32) :
    readString (fuel + 1) (some soFar) (c :: rest) = readString fuel (some (c :: soFar)) rest := by
  conv => left; unfold readString
  rw [if_neg (mt eq_of_beq quoted), if_neg (mt eq_of_beq escaped), if_neg control]
  rfl

/-- The written form of a character is read as that character. -/
theorem readString_escapeChar (fuel : Nat) (soFar : List Char) (c : Char) (rest : List Char) :
    readString (fuel + 1) (some soFar) (escapeChar c ++ rest) =
      readString fuel (some (c :: soFar)) rest := by
  rcases letter? : escapeLetter? c with _ | letter
  · obtain ⟨quoted, escaped⟩ := plain_of_escapeLetter? letter?
    rw [escapeChar, letter?]
    dsimp only
    by_cases control : c.toNat < 32
    · rw [if_pos control]
      exact readString_control fuel soFar rest control
    · rw [if_neg control]
      exact readString_plain fuel soFar rest quoted escaped control
  · obtain ⟨short, stands⟩ := shortEscape?_of_escapeLetter? letter?
    rw [escapeChar, letter?]
    exact readString_letter fuel soFar rest short stands

/-- A written string is read up to its closing quote. -/
theorem readString_written (text : List Char) (fuel : Nat) (soFar rest : List Char)
    (enough : text.length < fuel) :
    readString fuel (some soFar) (text.flatMap escapeChar ++ '"' :: rest) =
      some (some (soFar.reverse ++ text), rest) := by
  induction text generalizing fuel soFar with
  | nil =>
    obtain ⟨fuel, rfl⟩ := Nat.exists_eq_succ_of_ne_zero (Nat.ne_of_gt enough)
    rw [List.flatMap_nil, List.nil_append, List.append_nil, readString_end]
  | cons c text inductionHypothesis =>
    obtain ⟨fuel, rfl⟩ := Nat.exists_eq_succ_of_ne_zero (Nat.ne_of_gt (Nat.zero_lt_of_lt enough))
    rw [List.flatMap_cons, List.append_assoc, readString_escapeChar,
      inductionHypothesis fuel (c :: soFar) (Nat.lt_of_succ_lt_succ enough), List.reverse_cons,
      List.append_assoc, List.singleton_append]

/-- No character is written as nothing. -/
theorem length_le_escaped (text : List Char) : text.length ≤ (text.flatMap escapeChar).length := by
  have filled : ∀ c, 1 ≤ (escapeChar c).length := by
    intro c
    unfold escapeChar
    split
    · exact Nat.le_add_left 1 1
    · split
      · exact Nat.le_add_left 1 5
      · exact Nat.le_refl 1
  induction text with
  | nil => exact Nat.le_refl 0
  | cons c text inductionHypothesis =>
    rw [List.flatMap_cons, List.length_append, List.length_cons]
    have := filled c
    omega

theorem toList_quote (text : String) :
    (quote text).toList = '"' :: (text.toList.flatMap escapeChar ++ ['"']) := by
  rw [quote, String.toList_ofList]

/-- What follows an opening quote is read up to the closing one. -/
theorem readString_quote (text : String) (rest : List Char) :
    readString ((text.toList.flatMap escapeChar ++ '"' :: rest).length + 1) (some [])
      (text.toList.flatMap escapeChar ++ '"' :: rest) = some (some text.toList, rest) := by
  have enough := length_le_escaped text.toList
  rw [readString_written text.toList _ [] rest (by rw [List.length_append]; omega)]
  rfl

/-! ### Numbers -/

/-- What may follow a written value. -/
def Ends (rest : List Char) : Prop :=
  ∀ c ∈ rest.head?, c = ',' ∨ c = ']' ∨ c = '\x7d'

theorem ends_cons {c : Char} (rest : List Char) (sign : c = ',' ∨ c = ']' ∨ c = '\x7d') :
    Ends (c :: rest) := by
  rintro _ ⟨⟩
  exact sign

/-- The value of a digit is that of the number below ten that it is written for. -/
theorem knows_digitValue : Address.Knows (fun c => some (digitValue c)) 10 := by
  intro digit small
  have all : ∀ digit : Fin 10, some (digitValue (Nat.digitChar digit)) = some digit.val := by decide
  exact all ⟨digit, small⟩

theorem digitsValue_toDigits (count : Nat) : digitsValue (Nat.toDigits 10 count) = count := by
  exact Address.foldl_toDigits (by decide) knows_digitValue count

/-- Digits are read up to what ends them. -/
theorem readDigitRun_toDigits (count : Nat) {rest : List Char} (ends : Ends rest) :
    readDigitRun (Nat.toDigits 10 count ++ rest) = some (Nat.toDigits 10 count, rest) := by
  have digits : ∀ c ∈ Nat.toDigits 10 count, isDigit c = true := fun _ => isDigit_of_mem_toDigits
  have stops : rest.takeWhile isDigit = [] ∧ rest.dropWhile isDigit = rest := by
    cases rest with
    | nil => exact ⟨rfl, rfl⟩
    | cons c rest =>
      have other : ¬ isDigit c = true := by
        rcases ends c rfl with rfl | rfl | rfl <;> decide
      exact ⟨List.takeWhile_cons_of_neg other, List.dropWhile_cons_of_neg other⟩
  rw [readDigitRun, List.takeWhile_append_of_pos digits, List.dropWhile_append_of_pos digits,
    stops.1, stops.2, List.append_nil]
  split
  · rename_i none
    exact absurd none Nat.toDigits_ne_nil
  · rfl

theorem readFractionPart_of_ends {rest : List Char} (ends : Ends rest) :
    readFractionPart rest = some ([], rest) := by
  unfold readFractionPart
  split
  · rcases ends '.' rfl with same | same | same <;> exact absurd same (by decide)
  · rfl

theorem readExponentPart_of_ends {rest : List Char} (ends : Ends rest) :
    readExponentPart rest = some ([], rest) := by
  cases rest with
  | nil => rfl
  | cons c rest =>
    have other : ¬ (c == 'e' || c == 'E') = true := by
      rcases ends c rfl with rfl | rfl | rfl <;> decide
    unfold readExponentPart
    dsimp only
    rw [if_neg other]

/-- Digits are written without zeros in front. -/
theorem not_padded_toDigits (count : Nat) :
    ¬ ((Nat.toDigits 10 count).head? == some '0' && (Nat.toDigits 10 count).length > 1) = true := by
  rw [Bool.and_eq_true]
  rintro ⟨zero, long⟩
  have none := Address.eq_zero_of_head?_toDigits (by decide) knows_digitValue count (eq_of_beq zero)
  rw [none] at long
  exact absurd long (by decide)

/-- Digits are read as their number, made negative or not. -/
theorem readUnsigned_toDigits {negative : Bool} {count : Nat} {rest : List Char} (ends : Ends rest)
    (negated : negative = true → count ≠ 0)
    (low : -9223372036854775808 ≤ withSign negative count)
    (high : withSign negative count < 18446744073709551616) :
    readUnsigned negative (Nat.toDigits 10 count ++ rest) =
      some (.integer (withSign negative count), rest) := by
  unfold readUnsigned
  rw [readDigitRun_toDigits count ends]
  dsimp only [Option.bind_eq_bind, Option.bind_some]
  rw [if_neg (not_padded_toDigits count), readFractionPart_of_ends ends]
  dsimp only [Option.bind_eq_bind, Option.bind_some]
  rw [readExponentPart_of_ends ends]
  dsimp only [Option.bind_eq_bind, Option.bind_some]
  rw [digitsValue_toDigits]
  have nonzero : (negative && (count : Int) == 0) = false := by
    rw [Bool.and_eq_false_imp]
    intro minus
    rw [beq_eq_false_iff_ne, Int.natCast_ne_zero]
    exact negated minus
  have held : (true && true && !(negative && (count : Int) == 0) &&
      decide (-9223372036854775808 ≤ withSign negative count) &&
      decide (withSign negative count < 18446744073709551616)) = true := by
    rw [nonzero, decide_eq_true low, decide_eq_true high]
    rfl
  exact if_pos held

/-- What is written of a number starts with a digit. -/
theorem exists_toDigits (count : Nat) :
    ∃ digit digits, isDigit digit = true ∧ Nat.toDigits 10 count = digit :: digits := by
  obtain ⟨digit, digits, written⟩ := List.exists_cons_of_ne_nil (Nat.toDigits_ne_nil (n := count))
  exact ⟨digit, digits, isDigit_of_mem_toDigits (written ▸ List.mem_cons_self), written⟩

/-- A text that starts otherwise has no sign. -/
theorem takeMinus_of_ne {first : Char} (text : List Char) (other : first ≠ '-') :
    takeMinus (first :: text) = (false, first :: text) := by
  unfold takeMinus
  split
  · rename_i same
    cases same
    exact absurd rfl other
  · rfl

/-- An integer is written as its sign and its digits. -/
theorem takeMinus_toString (value : Int) (rest : List Char) :
    takeMinus ((toString value).toList ++ rest) =
      (decide (value < 0), Nat.toDigits 10 value.natAbs ++ rest) := by
  rw [toList_toString]
  by_cases negative : value < 0
  · rw [if_pos negative, decide_eq_true negative]
    rfl
  · obtain ⟨digit, digits, decimal, written⟩ := exists_toDigits value.natAbs
    rw [if_neg negative, decide_eq_false negative, written, List.cons_append]
    refine takeMinus_of_ne _ ?_
    rintro rfl
    exact absurd decimal (by decide)

theorem withSign_natAbs (value : Int) : withSign (decide (value < 0)) value.natAbs = value := by
  by_cases negative : value < 0
  · rw [decide_eq_true negative]
    show -(value.natAbs : Int) = value
    omega
  · rw [decide_eq_false negative]
    show (value.natAbs : Int) = value
    omega

/-- An integer of 64 bits is read as itself. -/
theorem readNumber_toString {value : Int} (low : -9223372036854775808 ≤ value)
    (high : value < 18446744073709551616) {rest : List Char} (ends : Ends rest) :
    readNumber ((toString value).toList ++ rest) = some (.integer value, rest) := by
  have negated : decide (value < 0) = true → value.natAbs ≠ 0 := by
    intro negative
    have below := of_decide_eq_true negative
    omega
  have read := readUnsigned_toDigits ends negated
  rw [withSign_natAbs] at read
  rw [readNumber, takeMinus_toString]
  exact read low high

/-! ### Values -/

/-- What is written of a value is not blank at its start, does not close an array there, and is
read as the value, up to what ends it. -/
structure ReadBack (value : Json) : Prop where
  starts : ∃ first text, (render value).toList = first :: text ∧ isSpace first = false ∧ first ≠ ']'
  reads : ∀ fuel rest, (render value).toList.length ≤ fuel → Ends rest →
    readValue fuel ((render value).toList ++ rest) = some (value, rest)

theorem skipSpace_of_starts {first : Char} (text : List Char) (visible : isSpace first = false) :
    skipSpace (first :: text) = first :: text :=
  List.dropWhile_cons_of_neg (by rw [visible]; decide)

/-- What is written of a value is skipped by no one. -/
theorem ReadBack.skipSpace_render {value : Json} (back : ReadBack value) (rest : List Char) :
    skipSpace ((render value).toList ++ rest) = (render value).toList ++ rest := by
  obtain ⟨first, text, written, visible, _⟩ := back.starts
  rw [written, List.cons_append]
  exact skipSpace_of_starts _ visible

theorem readBack_null : ReadBack .null := by
  refine ⟨⟨'n', ['u', 'l', 'l'], rfl, rfl, by decide⟩, fun fuel rest enough _ => ?_⟩
  obtain ⟨fuel, rfl⟩ := Nat.exists_eq_add_of_le' enough
  rfl

theorem readBack_bool (value : Bool) : ReadBack (.bool value) := by
  cases value with
  | false =>
    refine ⟨⟨'f', ['a', 'l', 's', 'e'], rfl, rfl, by decide⟩, fun fuel rest enough _ => ?_⟩
    obtain ⟨fuel, rfl⟩ := Nat.exists_eq_add_of_le' enough
    rfl
  | true =>
    refine ⟨⟨'t', ['r', 'u', 'e'], rfl, rfl, by decide⟩, fun fuel rest enough _ => ?_⟩
    obtain ⟨fuel, rfl⟩ := Nat.exists_eq_add_of_le' enough
    rfl

theorem readBack_string (value : String) : ReadBack (.string value) := by
  have written : (render (.string value)).toList =
      '"' :: (value.toList.flatMap escapeChar ++ ['"']) := by
    rw [render, toList_quote]
  refine ⟨⟨'"', _, written, rfl, by decide⟩, fun fuel rest enough _ => ?_⟩
  rw [written] at enough ⊢
  obtain ⟨fuel, rfl⟩ := Nat.exists_eq_add_of_le' (Nat.le_trans (Nat.le_add_left 1 _) enough)
  simp only [List.cons_append, List.append_assoc, List.nil_append]
  unfold readValue
  dsimp only
  rw [readString_quote]
  simp only [Option.map_some, String.ofList_toList]

/-- A text that starts like a number is read as one. -/
theorem readValue_number (fuel : Nat) {first : Char} (text : List Char)
    (sign : first = '-' ∨ isDigit first = true) :
    readValue (fuel + 1) (first :: text) = readNumber (first :: text) := by
  have other : ∀ c, c ≠ '-' → isDigit c = false → first ≠ c := by
    rintro c apart none rfl
    rcases sign with same | digit
    · exact apart same
    · rw [none] at digit
      cases digit
  unfold readValue
  split
  · exact absurd rfl (other 'n' (by decide) rfl)
  · exact absurd rfl (other 't' (by decide) rfl)
  · exact absurd rfl (other 'f' (by decide) rfl)
  · exact absurd rfl (other '"' (by decide) rfl)
  · exact absurd rfl (other '[' (by decide) rfl)
  · exact absurd rfl (other '\x7b' (by decide) rfl)
  · rfl

theorem readBack_integer {value : Int} (low : -9223372036854775808 ≤ value)
    (high : value < 18446744073709551616) : ReadBack (.integer value) := by
  obtain ⟨first, text, written, sign⟩ : ∃ first text, (toString value).toList = first :: text ∧
      (first = '-' ∨ isDigit first = true) := by
    obtain ⟨digit, digits, decimal, written⟩ := exists_toDigits value.natAbs
    rw [toList_toString, written]
    split
    · exact ⟨_, _, rfl, Or.inl rfl⟩
    · exact ⟨_, _, rfl, Or.inr decimal⟩
  have rendered : (render (.integer value)).toList = first :: text := by
    rw [render, written]
  have apart : isSpace first = false ∧ first ≠ ']' := by
    rcases sign with rfl | digit
    · decide
    · constructor
      · by_contra blank
        simp only [isSpace, Bool.not_eq_false, Bool.or_eq_true, beq_iff_eq] at blank
        rcases blank with ((rfl | rfl) | rfl) | rfl <;> exact absurd digit (by decide)
      · rintro rfl
        exact absurd digit (by decide)
  refine ⟨⟨first, text, rendered, apart⟩, fun fuel rest enough ends => ?_⟩
  rw [rendered] at enough ⊢
  obtain ⟨fuel, rfl⟩ := Nat.exists_eq_add_of_le' (Nat.le_trans (Nat.le_add_left 1 _) enough)
  rw [List.cons_append, readValue_number fuel _ sign, ← List.cons_append, ← written]
  exact readNumber_toString low high ends

/-! ### Arrays -/

theorem toList_comma : (comma false).toList = [','] := rfl

theorem toList_no_comma : (comma true).toList = [] := rfl

theorem toList_renderItems (first : Bool) (item : Json) (items : List Json) :
    (renderItems first (item :: items)).toList =
      (comma first).toList ++ ((render item).toList ++ (renderItems false items).toList) := by
  rw [renderItems, String.toList_append, String.toList_append, List.append_assoc]

/-- An item is read up to the bracket that follows it. -/
theorem readItems_last (fuel : Nat) (soFar : List Json) {item : Json} (rest : List Char)
    (back : ReadBack item) (enough : (render item).toList.length ≤ fuel) :
    readItems (fuel + 1) soFar ((render item).toList ++ ']' :: rest) =
      some (.array (soFar.reverse ++ [item]), rest) := by
  unfold readItems
  rw [back.reads fuel _ enough (ends_cons rest (Or.inr (Or.inl rfl)))]
  simp only [skipSpace_of_starts rest (rfl : isSpace ']' = false), List.reverse_cons]

/-- An item is read up to the comma that follows it. -/
theorem readItems_next (fuel : Nat) (soFar : List Json) {item : Json} (rest : List Char)
    (back : ReadBack item) (enough : (render item).toList.length ≤ fuel) :
    readItems (fuel + 1) soFar ((render item).toList ++ ',' :: rest) =
      readItems fuel (item :: soFar) (skipSpace rest) := by
  conv => left; unfold readItems
  rw [back.reads fuel _ enough (ends_cons rest (Or.inl rfl))]
  simp only [skipSpace_of_starts rest (rfl : isSpace ',' = false)]

/-- Written items are read up to the end of their array. -/
theorem readItems_render (item : Json) (items soFar : List Json) (fuel : Nat) (rest : List Char)
    (back : ReadBack item) (each : ∀ item ∈ items, ReadBack item)
    (enough : (render item).toList.length + (renderItems false items).toList.length < fuel) :
    readItems fuel soFar
        ((render item).toList ++ ((renderItems false items).toList ++ ']' :: rest)) =
      some (.array (soFar.reverse ++ item :: items), rest) := by
  -- Every turn takes one from the fuel and a comma at least from the text, so it lasts.
  induction items generalizing item soFar fuel with
  | nil =>
    obtain ⟨fuel, rfl⟩ := Nat.exists_eq_add_of_lt enough
    exact readItems_last _ soFar rest back (by omega)
  | cons next items inductionHypothesis =>
    have backNext := each next List.mem_cons_self
    rw [toList_renderItems, toList_comma, List.singleton_append] at enough ⊢
    obtain ⟨fuel, rfl⟩ := Nat.exists_eq_add_of_lt enough
    rw [List.length_cons, List.length_append, List.cons_append, List.append_assoc,
      readItems_next _ soFar _ back (by omega), backNext.skipSpace_render,
      inductionHypothesis next (item :: soFar) _ backNext
        (fun item member => each item (List.mem_cons_of_mem _ member)) (by omega),
      List.reverse_cons, List.append_assoc, List.singleton_append]

/-- An array that is not closed at once is read item by item. -/
theorem readValue_array (fuel : Nat) {value : Json} (rest : List Char) (back : ReadBack value) :
    readValue (fuel + 1) ('[' :: ((render value).toList ++ rest)) =
      readItems fuel [] ((render value).toList ++ rest) := by
  obtain ⟨first, text, starts, _, inside⟩ := back.starts
  unfold readValue
  simp only [back.skipSpace_render]
  split
  · rename_i closed
    rw [starts] at closed
    cases closed
    exact absurd rfl inside
  · rfl

theorem readBack_array {items : List Json} (each : ∀ item ∈ items, ReadBack item) :
    ReadBack (.array items) := by
  have written : (render (.array items)).toList =
      '[' :: ((renderItems true items).toList ++ [']']) := by
    rw [render]
    simp only [String.toList_append]
    rfl
  refine ⟨⟨'[', _, written, rfl, by decide⟩, fun fuel rest enough _ => ?_⟩
  rw [written] at enough ⊢
  obtain ⟨fuel, rfl⟩ := Nat.exists_eq_add_of_le' (Nat.le_trans (Nat.le_add_left 1 _) enough)
  rw [List.cons_append, List.append_assoc, List.singleton_append]
  cases items with
  | nil => rfl
  | cons item items =>
    have back := each item List.mem_cons_self
    rw [toList_renderItems, toList_no_comma, List.nil_append] at enough ⊢
    simp only [List.length_cons, List.length_append] at enough
    rw [List.append_assoc, readValue_array fuel _ back]
    exact readItems_render item items [] fuel rest back
      (fun item member => each item (List.mem_cons_of_mem _ member)) (by omega)

/-! ### Objects -/

theorem toList_renderMembers (first : Bool) (name : String) (value : Json)
    (members : List (String × Json)) :
    (renderMembers first ((name, value) :: members)).toList =
      (comma first).toList ++ ('"' :: (name.toList.flatMap escapeChar ++ '"' :: ':' ::
        ((render value).toList ++ (renderMembers false members).toList))) := by
  have colon : (":" : String).toList = [':'] := rfl
  rw [renderMembers]
  simp only [String.toList_append, toList_quote, colon, List.cons_append, List.append_assoc,
    List.nil_append]

/-- A member is read up to the bracket that follows it. -/
theorem readMembers_last (fuel : Nat) (soFar : List (String × Json)) (name : String) {value : Json}
    (rest : List Char) (back : ReadBack value) (enough : (render value).toList.length ≤ fuel) :
    readMembers (fuel + 1) (some soFar) ('"' :: (name.toList.flatMap escapeChar ++
        '"' :: ':' :: ((render value).toList ++ '\x7d' :: rest))) =
      some (.object (soFar.reverse ++ [(name, value)]), rest) := by
  have read := back.reads fuel _ enough (ends_cons rest (Or.inr (Or.inr rfl)))
  unfold readMembers
  simp only [readString_quote, skipSpace_of_starts _ (rfl : isSpace ':' = false),
    back.skipSpace_render, read, skipSpace_of_starts rest (rfl : isSpace '\x7d' = false),
    String.ofList_toList, Option.bind_eq_bind, Option.bind_some, pure, List.reverse_cons]

/-- A member is read up to the comma that follows it. -/
theorem readMembers_next (fuel : Nat) (soFar : List (String × Json)) (name : String) {value : Json}
    (rest : List Char) (back : ReadBack value) (enough : (render value).toList.length ≤ fuel) :
    readMembers (fuel + 1) (some soFar) ('"' :: (name.toList.flatMap escapeChar ++
        '"' :: ':' :: ((render value).toList ++ ',' :: rest))) =
      readMembers fuel (some ((name, value) :: soFar)) (skipSpace rest) := by
  have read := back.reads fuel _ enough (ends_cons rest (Or.inl rfl))
  conv => left; unfold readMembers
  simp only [readString_quote, skipSpace_of_starts _ (rfl : isSpace ':' = false),
    back.skipSpace_render, read, skipSpace_of_starts rest (rfl : isSpace ',' = false),
    String.ofList_toList, Option.bind_eq_bind, Option.bind_some, pure]

/-- Written members are read up to the end of their object. -/
theorem readMembers_render (name : String) (value : Json) (members soFar : List (String × Json))
    (fuel : Nat) (rest : List Char) (back : ReadBack value)
    (each : ∀ member ∈ members, ReadBack member.2)
    (enough : (render value).toList.length + (renderMembers false members).toList.length < fuel) :
    readMembers fuel (some soFar) ('"' :: (name.toList.flatMap escapeChar ++ '"' :: ':' ::
        ((render value).toList ++ ((renderMembers false members).toList ++ '\x7d' :: rest)))) =
      some (.object (soFar.reverse ++ (name, value) :: members), rest) := by
  induction members generalizing name value soFar fuel with
  | nil =>
    obtain ⟨fuel, rfl⟩ := Nat.exists_eq_add_of_lt enough
    exact readMembers_last _ soFar name rest back (by omega)
  | cons next members inductionHypothesis =>
    obtain ⟨nextName, nextValue⟩ := next
    have backNext := each _ List.mem_cons_self
    rw [toList_renderMembers, toList_comma, List.singleton_append] at enough ⊢
    obtain ⟨fuel, rfl⟩ := Nat.exists_eq_add_of_lt enough
    simp only [List.length_cons, List.length_append, List.cons_append, List.append_assoc]
    rw [readMembers_next _ soFar name _ back (by omega), skipSpace_of_starts _ rfl,
      inductionHypothesis nextName nextValue ((name, value) :: soFar) _ backNext
        (fun member inside => each member (List.mem_cons_of_mem _ inside)) (by omega),
      List.reverse_cons, List.append_assoc, List.singleton_append]

/-- An object that is not closed at once is read member by member. -/
theorem readValue_object (fuel : Nat) (rest : List Char) :
    readValue (fuel + 1) ('\x7b' :: '"' :: rest) = readMembers fuel (some []) ('"' :: rest) := by
  unfold readValue
  simp only [skipSpace_of_starts rest (rfl : isSpace '"' = false)]
  rfl

theorem readBack_object {members : List (String × Json)}
    (each : ∀ member ∈ members, ReadBack member.2) : ReadBack (.object members) := by
  have written : (render (.object members)).toList =
      '\x7b' :: ((renderMembers true members).toList ++ ['\x7d']) := by
    rw [render]
    simp only [String.toList_append]
    rfl
  refine ⟨⟨'\x7b', _, written, rfl, by decide⟩, fun fuel rest enough _ => ?_⟩
  rw [written] at enough ⊢
  obtain ⟨fuel, rfl⟩ := Nat.exists_eq_add_of_le' (Nat.le_trans (Nat.le_add_left 1 _) enough)
  rw [List.cons_append, List.append_assoc, List.singleton_append]
  cases members with
  | nil => rfl
  | cons member members =>
    obtain ⟨name, value⟩ := member
    rw [toList_renderMembers, toList_no_comma, List.nil_append] at enough ⊢
    simp only [List.length_cons, List.length_append] at enough
    simp only [List.cons_append, List.append_assoc]
    rw [readValue_object]
    exact readMembers_render name value members [] fuel rest (each _ List.mem_cons_self)
      (fun member inside => each member (List.mem_cons_of_mem _ inside)) (by omega)

/-! ### Texts -/

/-- Whatever is legible is read back, by induction on why it is. -/
theorem readBack_of_legible {value : Json} (legible : Legible value) : ReadBack value := by
  induction legible with
  | null => exact readBack_null
  | bool value => exact readBack_bool value
  | integer value low high => exact readBack_integer low high
  | string value => exact readBack_string value
  | array items _ inductionHypothesis => exact readBack_array inductionHypothesis
  | object members _ inductionHypothesis => exact readBack_object inductionHypothesis

/-- A value that can be told from its text is read from it. -/
theorem read?_render {value : Json} (legible : Legible value) :
    read? (render value) = some value := by
  have back := readBack_of_legible legible
  have start := back.skipSpace_render []
  have read := back.reads _ [] (Nat.le_succ _) fun _ none => by cases none
  rw [List.append_nil] at start read
  rw [read?, start]
  simp only [read]
  rfl

end Zonecast.Json
