/-
Which names are accepted, said of their bytes. A name without the dots at its end has to be 1 to
253 bytes long, and labels between dots: 1 to 63 bytes each, small letters, digits and hyphens, no
hyphen at either end, and hyphens in the third and fourth place only after `xn`. A name that is
refused is told the first check that fails: of the whole name, else of its leftmost bad label.

The checks themselves are made on characters. That makes no difference on any text: names are cut
at the same dots, and a label that is checked for hyphens is known to be plain. An accepted name
has no blanks and no capitals, so its two written forms differ from it in the dots at the end only.
-/
import Zonecast.Name.Grammar
import Zonecast.Proofs.PlainBytes

namespace Zonecast.Name

open Zonecast.Text

/-! ### The grammar -/

/-- The bytes that labels are written in. -/
def IsLabelByte (byte : UInt8) : Prop :=
  ('a'.toUInt8 ≤ byte ∧ byte ≤ 'z'.toUInt8) ∨ ('0'.toUInt8 ≤ byte ∧ byte ≤ '9'.toUInt8) ∨
    byte = '-'.toUInt8

instance (byte : UInt8) : Decidable (IsLabelByte byte) :=
  inferInstanceAs (Decidable (_ ∨ _ ∨ _))

/-- The bytes that begin an encoded label. -/
def encodedMark : List UInt8 :=
  ['x', 'n', '-', '-'].map Char.toUInt8

/-- A label, by its bytes. -/
structure IsLabel (label : List UInt8) : Prop where
  size : 1 ≤ label.length ∧ label.length ≤ 63
  letters : ∀ byte ∈ label, IsLabelByte byte
  edges : label.head? ≠ some '-'.toUInt8 ∧ label.getLast? ≠ some '-'.toUInt8
  encoded : label[2]? = some '-'.toUInt8 → label[3]? = some '-'.toUInt8 → encodedMark <+: label

/-- A name without dots at its end, by its bytes. -/
structure IsName (name : List UInt8) : Prop where
  size : 1 ≤ name.length ∧ name.length ≤ 253
  labels : ∃ labels, name = ['.'.toUInt8].intercalate labels ∧ ∀ label ∈ labels, IsLabel label

/-! ### The checks, in order -/

/-- What is asked of some bytes, and the fault that is told if it does not hold. -/
structure Check where
  fault : Fault
  passes : List UInt8 → Prop

/-- The checks of a label. -/
def labelChecks : List Check :=
  [⟨.empty, fun label => 1 ≤ label.length⟩,
    ⟨.labelTooLong, fun label => label.length ≤ 63⟩,
    ⟨.invalidCharacters, fun label => ∀ byte ∈ label, IsLabelByte byte⟩,
    ⟨.hyphenAtEdge, fun label =>
      label.head? ≠ some '-'.toUInt8 ∧ label.getLast? ≠ some '-'.toUInt8⟩,
    ⟨.reservedHyphens, fun label =>
      label[2]? = some '-'.toUInt8 → label[3]? = some '-'.toUInt8 → encodedMark <+: label⟩]

/-- The checks of a whole name without dots at its end. -/
def nameChecks : List Check :=
  [⟨.empty, fun name => 1 ≤ name.length⟩, ⟨.nameTooLong, fun name => name.length ≤ 253⟩]

/-- The fault of the first check that some bytes fail. -/
inductive FirstFault (bytes : List UInt8) : List Check → Fault → Prop
  | here {check : Check} {later : List Check} (fails : ¬ check.passes bytes) :
    FirstFault bytes (check :: later) check.fault
  | later {check : Check} {later : List Check} {fault : Fault} (passes : check.passes bytes)
    (first : FirstFault bytes later fault) : FirstFault bytes (check :: later) fault

/-- The fault that a name without dots at its end is refused for: of the whole name, else of its
leftmost bad label. -/
inductive Refused (name : List UInt8) : Fault → Prop
  | whole {fault : Fault} (first : FirstFault name nameChecks fault) : Refused name fault
  | label {good : List (List UInt8)} {bad : List UInt8} {others : List (List UInt8)}
    {fault : Fault} (whole : ∀ check ∈ nameChecks, check.passes name)
    (cut : name.splitOn '.'.toUInt8 = good ++ bad :: others)
    (before : ∀ label ∈ good, IsLabel label) (first : FirstFault bad labelChecks fault) :
    Refused name fault

theorem not_firstFault_nil (bytes : List UInt8) (fault : Fault) : ¬ FirstFault bytes [] fault :=
  nofun

/-- A check that is made before others: its fault is told if it fails, else what they tell. -/
theorem check_before_iff {bytes : List UInt8} {own fault : Fault} {passes : List UInt8 → Prop}
    {others : List Check} {bad : Prop} {decision : Decidable bad} {told : Option Fault}
    (fails : bad ↔ ¬ passes bytes)
    (next : ¬ bad → (told = some fault ↔ FirstFault bytes others fault)) :
    (if bad then some own else told) = some fault ↔
      FirstFault bytes (⟨own, passes⟩ :: others) fault := by
  by_cases refused : bad
  · rw [if_pos refused, Option.some_inj]
    constructor
    · rintro rfl
      exact .here (fails.mp refused)
    · rintro (_ | ⟨holds, _⟩)
      · rfl
      · exact absurd holds (fails.mp refused)
  · rw [if_neg refused, next refused]
    constructor
    · exact .later (not_not.mp (mt fails.mpr refused))
    · rintro (failed | ⟨_, first⟩)
      · exact absurd (fails.mpr failed) refused
      · exact first

/-- Bytes have no first fault if they pass every check. -/
theorem forall_not_firstFault_iff (bytes : List UInt8) (checks : List Check) :
    (∀ fault, ¬ FirstFault bytes checks fault) ↔ ∀ check ∈ checks, check.passes bytes := by
  induction checks with
  | nil => exact iff_of_true (not_firstFault_nil bytes) nofun
  | cons check others inductionHypothesis =>
    rw [List.forall_mem_cons, ← inductionHypothesis]
    constructor
    · intro none
      have passes : check.passes bytes := by_contra fun fails => none check.fault (.here fails)
      exact ⟨passes, fun fault first => none fault (.later passes first)⟩
    · rintro ⟨passes, none⟩ fault (fails | ⟨_, first⟩)
      · exact fails passes
      · exact none fault first

/-- Where the first fault is told, none is if every check is passed. -/
theorem eq_none_iff_passes {bytes : List UInt8} {checks : List Check} {told : Option Fault}
    (first : ∀ fault, told = some fault ↔ FirstFault bytes checks fault) :
    told = none ↔ ∀ check ∈ checks, check.passes bytes := by
  rw [← forall_not_firstFault_iff, Option.eq_none_iff_forall_ne_some]
  exact forall_congr' fun fault => not_congr (first fault)

/-- A label passes every check. -/
theorem isLabel_iff (label : List UInt8) :
    IsLabel label ↔ ∀ check ∈ labelChecks, check.passes label := by
  simp only [labelChecks, List.forall_mem_cons, List.not_mem_nil, false_implies, implies_true,
    and_true]
  constructor
  · rintro ⟨⟨some, short⟩, letters, edges, encoded⟩
    exact ⟨some, short, letters, edges, encoded⟩
  · rintro ⟨some, short, letters, edges, encoded⟩
    exact ⟨⟨some, short⟩, letters, edges, encoded⟩

/-! ### Labels -/

theorem length_bytesOf (text : List Char) : (bytesOf text).length = byteSize text := by
  induction text with
  | nil => rfl
  | cons c rest inductionHypothesis =>
    rw [bytesOf_cons, List.length_append, String.length_utf8EncodeChar, inductionHypothesis,
      byteSize]

theorem one_le_length_bytesOf_iff (text : List Char) :
    1 ≤ (bytesOf text).length ↔ text ≠ [] := by
  cases text with
  | nil => exact iff_of_false (by decide) fun some => some rfl
  | cons c rest =>
    refine iff_of_true ?_ (List.cons_ne_nil _ _)
    have size := c.utf8Size_pos
    rw [length_bytesOf, byteSize]
    omega

/-- The characters of labels are plain, visible and no capitals. -/
theorem range_of_isLabelChar {c : Char} (letter : isLabelChar c = true) :
    '-' ≤ c ∧ c ≤ 'z' ∧ ¬ ('A' ≤ c ∧ c ≤ 'Z') := by
  have marks : '-'.toNat = 45 ∧ 'z'.toNat = 122 ∧ 'a'.toNat = 97 ∧ 'A'.toNat = 65 ∧
    'Z'.toNat = 90 ∧ '0'.toNat = 48 ∧ '9'.toNat = 57 := by decide
  simp only [isLabelChar, isDigit, Bool.or_eq_true, Bool.and_eq_true, decide_eq_true_eq,
    beq_iff_eq, char_le_iff_toNat_le] at letter ⊢
  rcases letter with (small | digit) | rfl <;> omega

theorem toNat_lt_of_isLabelChar {c : Char} (letter : isLabelChar c = true) : c.toNat < 128 :=
  Nat.lt_of_le_of_lt (range_of_isLabelChar letter).2.1 (by decide)

theorem isLabelByte_toUInt8_iff {c : Char} (plain : c.toNat < 128) :
    IsLabelByte c.toUInt8 ↔ isLabelChar c = true := by
  have hyphen := toUInt8_inj plain (show '-'.toNat < 128 by decide)
  simp only [IsLabelByte, isLabelChar, isDigit, Bool.or_eq_true, Bool.and_eq_true,
    decide_eq_true_eq, beq_iff_eq, hyphen, char_le_iff_toNat_le, UInt8.le_iff_toNat_le,
    toNat_toUInt8 plain, or_assoc]
  rfl

/-- A character is one that labels are written in if its bytes are. -/
theorem forall_mem_utf8EncodeChar_iff (c : Char) :
    (∀ byte ∈ String.utf8EncodeChar c, IsLabelByte byte) ↔ isLabelChar c = true := by
  by_cases plain : c.toNat < 128
  · rw [utf8EncodeChar_of_lt plain, List.forall_mem_singleton]
    exact isLabelByte_toUInt8_iff plain
  · refine iff_of_false (fun letters => ?_) fun letter => plain (toNat_lt_of_isLabelChar letter)
    have first := List.head_mem (String.utf8EncodeChar_ne_nil (c := c))
    have high := le_of_mem_utf8EncodeChar (Nat.not_lt.mp plain) first
    have marks : 'z'.toUInt8.toNat = 122 ∧ '9'.toUInt8.toNat = 57 ∧ '-'.toUInt8.toNat = 45 :=
      ⟨rfl, rfl, rfl⟩
    rcases letters _ first with ⟨_, small⟩ | ⟨_, digit⟩ | hyphen
    · have := UInt8.le_iff_toNat_le.mp small
      omega
    · have := UInt8.le_iff_toNat_le.mp digit
      omega
    · rw [hyphen] at high
      omega

theorem forall_mem_bytesOf_iff (label : List Char) :
    (∀ byte ∈ bytesOf label, IsLabelByte byte) ↔ ∀ c ∈ label, isLabelChar c = true := by
  simp only [bytesOf, List.forall_mem_flatMap, forall_mem_utf8EncodeChar_iff]

/-- A plain character is in some place if its byte is. -/
theorem map_toUInt8_eq_some_iff {place : Option Char} (plain : ∀ c ∈ place, c.toNat < 128)
    {mark : Char} (other : mark.toNat < 128) :
    place.map Char.toUInt8 = some mark.toUInt8 ↔ place = some mark := by
  cases place with
  | none => exact iff_of_false nofun nofun
  | some c =>
    rw [Option.map_some, Option.some_inj, Option.some_inj, toUInt8_inj (plain c rfl) other]

theorem map_toUInt8_isPrefix_iff (front text : List Char) (other : ∀ c ∈ front, c.toNat < 128)
    (plain : ∀ c ∈ text, c.toNat < 128) :
    front.map Char.toUInt8 <+: text.map Char.toUInt8 ↔ front <+: text := by
  induction front generalizing text with
  | nil => exact iff_of_true List.nil_prefix List.nil_prefix
  | cons first rest inductionHypothesis =>
    cases text with
    | nil => simp
    | cons c others =>
      obtain ⟨firstOther, restOther⟩ := List.forall_mem_cons.mp other
      obtain ⟨cPlain, othersPlain⟩ := List.forall_mem_cons.mp plain
      rw [List.map_cons, List.map_cons, List.cons_prefix_cons, List.cons_prefix_cons,
        toUInt8_inj firstOther cPlain, inductionHypothesis others restOther othersPlain]

theorem take_drop_eq_iff (label : List Char) (third fourth : Char) :
    (label.drop 2).take 2 = [third, fourth] ↔
      label[2]? = some third ∧ label[3]? = some fourth := by
  rcases label with _ | ⟨_, _ | ⟨_, _ | ⟨_, _ | ⟨_, _⟩⟩⟩⟩ <;> simp

/-- The hyphens of a plain label stand where those of its bytes do. -/
theorem hyphen_places {label : List Char} (letters : ∀ c ∈ label, isLabelChar c = true) :
    ((bytesOf label).head? = some '-'.toUInt8 ↔ label.head? = some '-') ∧
    ((bytesOf label).getLast? = some '-'.toUInt8 ↔ label.getLast? = some '-') ∧
    (∀ place : Nat, (bytesOf label)[place]? = some '-'.toUInt8 ↔ label[place]? = some '-') ∧
    (encodedMark <+: bytesOf label ↔ ['x', 'n', '-', '-'] <+: label) := by
  have plain : ∀ c ∈ label, c.toNat < 128 := fun c member =>
    toNat_lt_of_isLabelChar (letters c member)
  have hyphen : '-'.toNat < 128 := by decide
  have mark : ∀ c ∈ ['x', 'n', '-', '-'], c.toNat < 128 := by
    intro c member
    simp only [List.mem_cons, List.not_mem_nil, or_false] at member
    rcases member with rfl | rfl | rfl | rfl <;> decide
  rw [bytesOf_of_lt plain, List.head?_map, List.getLast?_map]
  refine ⟨?_, ?_, fun place => ?_, ?_⟩
  · exact map_toUInt8_eq_some_iff (fun c first => plain c (List.mem_of_mem_head? first)) hyphen
  · exact map_toUInt8_eq_some_iff (fun c last => plain c (List.mem_of_getLast? last)) hyphen
  · rw [List.getElem?_map]
    exact map_toUInt8_eq_some_iff (fun c found => plain c (List.mem_of_getElem? found)) hyphen
  · exact map_toUInt8_isPrefix_iff _ label mark plain

/-- A label is told the first check that its bytes fail. -/
theorem labelFault?_eq_some_iff (label : List Char) (fault : Fault) :
    labelFault? label = some fault ↔ FirstFault (bytesOf label) labelChecks fault := by
  unfold labelFault? labelChecks
  refine check_before_iff ?empty fun _ => check_before_iff ?long fun _ =>
    check_before_iff ?strange fun known => check_before_iff ?edges fun _ =>
      check_before_iff ?reserved fun _ =>
        iff_of_false (Option.some_ne_none fault).symm (not_firstFault_nil _ _)
  case empty =>
    rw [List.isEmpty_iff, one_le_length_bytesOf_iff, not_ne_iff]
  case long =>
    rw [length_bytesOf, Nat.not_le]
  case strange =>
    rw [forall_mem_bytesOf_iff, ← List.all_eq_true, Bool.not_eq_true', Bool.not_eq_true]
  all_goals
    -- Hyphens are looked for in plain labels only, so their places can be counted in characters.
    have letters : ∀ c ∈ label, isLabelChar c = true := by
      rwa [Bool.not_eq_true', Bool.not_eq_false, List.all_eq_true] at known
    obtain ⟨first, last, places, mark⟩ := hyphen_places letters
  case edges =>
    rw [ne_eq, ne_eq, first, last, Bool.or_eq_true, beq_iff_eq, beq_iff_eq]
    exact or_iff_not_and_not
  case reserved =>
    rw [places, places, mark, Bool.and_eq_true, beq_iff_eq, take_drop_eq_iff, Bool.not_eq_true',
      ← Bool.not_eq_true, List.isPrefixOf_iff_prefix, ← and_imp, Classical.not_imp]

/-- A label without fault is one by its bytes. -/
theorem labelFault?_eq_none_iff (label : List Char) :
    labelFault? label = none ↔ IsLabel (bytesOf label) :=
  (eq_none_iff_passes (labelFault?_eq_some_iff label)).trans (isLabel_iff _).symm

/-! ### Names -/

/-- The bytes of a name without the dots at its end. -/
def undotted (name : String) : List UInt8 :=
  (utf8 name).rdropWhile (· == '.'.toUInt8)

theorem undotted_eq (name : String) :
    undotted name = bytesOf (dropEnd (· == '.') name.toList) := by
  rw [undotted, utf8_eq_bytesOf]
  exact rdropWhile_bytesOf (by decide) name.toList

/-- Some labels hold a first bad one if it comes after labels only. -/
theorem findSome?_labelFault?_eq_some_iff (labels : List (List Char)) (fault : Fault) :
    labels.findSome? labelFault? = some fault ↔
      ∃ good bad others, labels.map bytesOf = good ++ bad :: others ∧
        (∀ label ∈ good, IsLabel label) ∧ FirstFault bad labelChecks fault := by
  rw [List.findSome?_eq_some_iff]
  constructor
  · rintro ⟨good, bad, others, rfl, told, before⟩
    refine ⟨good.map bytesOf, bytesOf bad, others.map bytesOf, by simp, ?_, ?_⟩
    · exact List.forall_mem_map.mpr fun label member =>
        (labelFault?_eq_none_iff label).mp (before label member)
    · exact (labelFault?_eq_some_iff bad fault).mp told
  · rintro ⟨good, bad, others, cut, before, first⟩
    obtain ⟨good, rest, rfl, rfl, tail⟩ := List.map_eq_append_iff.mp cut
    obtain ⟨bad, others, rfl, rfl, rfl⟩ := List.map_eq_cons_iff.mp tail
    refine ⟨good, bad, others, rfl, (labelFault?_eq_some_iff bad fault).mpr first, ?_⟩
    exact fun label member =>
      (labelFault?_eq_none_iff label).mpr (List.forall_mem_map.mp before label member)

theorem findSome?_labelFault?_eq_none_iff (labels : List (List Char)) :
    labels.findSome? labelFault? = none ↔ ∀ label ∈ labels.map bytesOf, IsLabel label := by
  rw [List.findSome?_eq_none_iff, List.forall_mem_map]
  simp only [labelFault?_eq_none_iff]

/-- The fault of a whole name without dots at its end. -/
def wholeFault? (body : List Char) : Option Fault :=
  if body.isEmpty then some .empty else if 253 < byteSize body then some .nameTooLong else none

/-- The whole name is checked before its labels. -/
theorem nameFault?_eq (name : List Char) :
    nameFault? name = (wholeFault? (dropEnd (· == '.') name)).or
      ((pieces '.' (dropEnd (· == '.') name)).findSome? labelFault?) := by
  unfold nameFault? wholeFault?
  dsimp only
  split
  · rfl
  · split <;> rfl

theorem wholeFault?_eq_some_iff (body : List Char) (fault : Fault) :
    wholeFault? body = some fault ↔ FirstFault (bytesOf body) nameChecks fault := by
  unfold wholeFault? nameChecks
  refine check_before_iff ?empty fun _ => check_before_iff ?long fun _ =>
    iff_of_false (Option.some_ne_none fault).symm (not_firstFault_nil _ _)
  case empty =>
    rw [List.isEmpty_iff, one_le_length_bytesOf_iff, not_ne_iff]
  case long =>
    rw [length_bytesOf, Nat.not_le]

/-- A name is told the first check that its bytes fail, of the whole or of the leftmost bad
label. -/
theorem nameFault?_eq_some_iff (name : List Char) (fault : Fault) :
    nameFault? name = some fault ↔ Refused (bytesOf (dropEnd (· == '.') name)) fault := by
  rw [nameFault?_eq, Option.or_eq_some_iff, wholeFault?_eq_some_iff,
    eq_none_iff_passes (wholeFault?_eq_some_iff _), findSome?_labelFault?_eq_some_iff,
    ← splitOn_bytesOf (by decide)]
  constructor
  · rintro (first | ⟨whole, good, bad, others, cut, before, first⟩)
    · exact .whole first
    · exact .label whole cut before first
  · rintro (first | ⟨whole, cut, before, first⟩)
    · exact Or.inl first
    · exact Or.inr ⟨whole, _, _, _, cut, before, first⟩

/-- Labels between dots are what bytes are cut into at their dots. -/
theorem isName_iff (name : List UInt8) :
    IsName name ↔ (∀ check ∈ nameChecks, check.passes name) ∧
      ∀ label ∈ name.splitOn '.'.toUInt8, IsLabel label := by
  simp only [nameChecks, List.forall_mem_cons, List.not_mem_nil, false_implies, implies_true,
    and_true]
  constructor
  · rintro ⟨size, labels, rfl, each⟩
    have clean : ∀ label ∈ labels, '.'.toUInt8 ∉ label := fun label member dot =>
      absurd ((each label member).letters _ dot) (by decide)
    have some : labels ≠ [] := by
      rintro rfl
      exact absurd size.1 (by decide)
    rw [List.splitOn_intercalate _ clean some]
    exact ⟨size, each⟩
  · rintro ⟨size, each⟩
    exact ⟨size, _, (List.intercalate_splitOn _).symm, each⟩

/-- A name without fault is one by its bytes. -/
theorem nameFault?_eq_none_iff (name : List Char) :
    nameFault? name = none ↔ IsName (bytesOf (dropEnd (· == '.') name)) := by
  rw [nameFault?_eq, Option.or_eq_none_iff, eq_none_iff_passes (wholeFault?_eq_some_iff _),
    findSome?_labelFault?_eq_none_iff, ← splitOn_bytesOf (by decide), isName_iff]

/-! ### Written forms of accepted names -/

/-- An accepted name is written in the characters of labels and dots. -/
theorem mem_of_accepted {name : List Char} (accepted : nameFault? name = none) {c : Char}
    (member : c ∈ name) : isLabelChar c = true ∨ c = '.' := by
  rcases mem_dropEnd_or (· == '.') member with kept | dropped
  · rw [nameFault?_eq, Option.or_eq_none_iff, findSome?_labelFault?_eq_none_iff] at accepted
    rw [← joinPieces_pieces '.' (dropEnd (· == '.') name)] at kept
    rcases mem_joinPieces kept with dot | ⟨label, found, letter⟩
    · exact Or.inr dot
    · have good := accepted.2 _ (List.mem_map_of_mem found)
      exact Or.inl ((forall_mem_bytesOf_iff label).mp good.letters c letter)
  · exact Or.inr (beq_iff_eq.mp dropped)

/-- The characters of accepted names are neither blank nor capitals. -/
theorem plain_of_accepted {c : Char} (known : isLabelChar c = true ∨ c = '.') :
    isBlank c = false ∧ lowerChar c = c := by
  rcases known with letter | rfl
  · obtain ⟨low, high, small⟩ := range_of_isLabelChar letter
    refine ⟨isBlank_of_visible c ?_ ?_, lowerChar_of_not_capital c small⟩
    · exact Char.le_trans (by decide) low
    · exact Char.le_trans high (by decide)
  · decide

/-- The bare form of an accepted name is the name without the dots at its end. -/
theorem bareChars_of_accepted {name : List Char} (accepted : nameFault? name = none) :
    bareChars name = dropEnd (· == '.') name := by
  have plain : ∀ c ∈ name, isBlank c = false ∧ lowerChar c = c := fun c member =>
    plain_of_accepted (mem_of_accepted accepted member)
  have trimmed : trimChars name = name :=
    trimChars_of_edges name (fun c first => (plain c (List.mem_of_mem_head? first)).1)
      fun c last => (plain c (List.mem_of_getLast? last)).1
  have small : (dropEnd (· == '.') name).map lowerChar = (dropEnd (· == '.') name).map id :=
    List.map_congr_left fun c member => (plain c ((dropEnd_isPrefix _ _).subset member)).2
  rw [bareChars, trimmed, small, List.map_id]

/-- Whether a name is accepted does not depend on the dots at its end. -/
theorem nameFault?_congr {first second : List Char}
    (same : dropEnd (· == '.') first = dropEnd (· == '.') second) :
    nameFault? first = nameFault? second := by
  rw [nameFault?_eq, nameFault?_eq, same]

/-! ### Validation -/

theorem validate_eq_ok_iff (name : String) :
    validate name = .ok () ↔ nameFault? name.toList = none := by
  unfold validate
  cases nameFault? name.toList with
  | none => exact iff_of_true rfl rfl
  | some fault => exact iff_of_false nofun nofun

theorem validate_eq_error_iff (name : String) (fault : Fault) :
    validate name = .error fault ↔ nameFault? name.toList = some fault := by
  unfold validate
  cases nameFault? name.toList with
  | none => exact iff_of_false nofun nofun
  | some found => rw [Except.error.injEq, Option.some_inj]

theorem toList_bare (name : String) : (bare name).toList = bareChars name.toList :=
  String.toList_ofList

/-- The two written forms of an accepted name are accepted, and differ from it in the dots at the
end only. -/
theorem written_of_accepted {name : String} (accepted : validate name = .ok ()) :
    validate (bare name) = .ok () ∧ utf8 (bare name) = undotted name ∧
      validate (canonical name) = .ok () ∧
      utf8 (canonical name) = undotted name ++ ['.'.toUInt8] := by
  rw [validate_eq_ok_iff] at accepted
  have body := bareChars_of_accepted accepted
  have bareEnd : dropEnd (· == '.') (bareChars name.toList) = dropEnd (· == '.') name.toList := by
    rw [dropEnd_bareChars, body]
  have canonicalEnd :
      dropEnd (· == '.') (bareChars name.toList ++ ['.']) = dropEnd (· == '.') name.toList := by
    rw [dropEnd_bareChars_dot, body]
  rw [validate_eq_ok_iff, validate_eq_ok_iff, utf8_eq_bytesOf, utf8_eq_bytesOf, toList_bare,
    toList_canonical, nameFault?_congr bareEnd, nameFault?_congr canonicalEnd, bytesOf_append,
    body, undotted_eq]
  exact ⟨accepted, rfl, accepted, rfl⟩

/-- The bare form of an accepted name is its own bare form. -/
theorem bare_bare_of_accepted {name : String} (accepted : validate name = .ok ()) :
    bare (bare name) = bare name := by
  have again := (validate_eq_ok_iff _).mp (written_of_accepted accepted).1
  rw [bare, bareChars_of_accepted again, toList_bare, dropEnd_bareChars, bare]

/-- Names are accepted by their grammar, and a refused one is told its first fault. The two written
forms of an accepted name are accepted, differ from it in the dots at the end only, and are their
own written forms. -/
theorem names_by_grammar (name : String) :
    (validate name = .ok () ↔ IsName (undotted name)) ∧
    (∀ fault, validate name = .error fault ↔ Refused (undotted name) fault) ∧
    (validate name = .ok () →
      (validate (canonical name) = .ok () ∧
        utf8 (canonical name) = undotted name ++ ['.'.toUInt8] ∧
        canonical (canonical name) = canonical name) ∧
      validate (bare name) = .ok () ∧ utf8 (bare name) = undotted name ∧
        bare (bare name) = bare name) := by
  refine ⟨?_, fun fault => ?_, fun accepted => ?_⟩
  · rw [validate_eq_ok_iff, nameFault?_eq_none_iff, undotted_eq]
  · rw [validate_eq_error_iff, nameFault?_eq_some_iff, undotted_eq]
  · obtain ⟨bareOk, bareBytes, canonicalOk, canonicalBytes⟩ := written_of_accepted accepted
    exact ⟨⟨canonicalOk, canonicalBytes, canonical_canonical name⟩, bareOk, bareBytes,
      bare_bare_of_accepted accepted⟩

/-- An accepted name with an encoded label, a label with a hyphen, and dots at its end. -/
def encodedName : String :=
  "ns-1.xn--q9jyb4c.test.."

theorem writtenForms_encodedName :
    validate encodedName = .ok () ∧
      (validate (canonical encodedName) = .ok () ∧
        utf8 (canonical encodedName) = undotted encodedName ++ ['.'.toUInt8] ∧
        canonical (canonical encodedName) = canonical encodedName) ∧
      validate (bare encodedName) = .ok () ∧ utf8 (bare encodedName) = undotted encodedName ∧
        bare (bare encodedName) = bare encodedName := by
  have accepted : validate encodedName = .ok () := by decide
  exact ⟨accepted, (names_by_grammar encodedName).2.2 accepted⟩

/-- The leftmost bad label decides, and not the check that comes first. -/
example : validate "-a.b_.test." = .error .hyphenAtEdge := by decide

end Zonecast.Name
