/-
Position in the tree follows labels. A name lies strictly under a parent when the parent's labels
end the name's and are not all of them; its registered domain is the label that stands right before
them, and them. A text that merely ends like the parent is not under it, since the labels are cut
at dots.

The tests can also be made on bytes: sizes are compared, the parent is looked for at the end, and
what stands before it is cut off by its size. Such a cut has a result only if the text is long
enough and no character is cut in two. `Bytewise` makes the tests in this way, with nothing for an
answer where a cut has no result, and it always answers as the tests on characters do.
-/
import Zonecast.Proofs.RegisteredDomains

namespace Zonecast

namespace Text

/-! ### Pieces at the end -/

/-- Joining goes through a list of pieces front to back. -/
theorem joinPieces_append (separator : Char) (front back : List (List Char)) (before : front ≠ [])
    (after : back ≠ []) :
    joinPieces separator (front ++ back) =
      joinPieces separator front ++ separator :: joinPieces separator back := by
  induction front with
  | nil => exact absurd rfl before
  | cons first others inductionHypothesis =>
    cases others with
    | nil =>
      obtain ⟨second, rest, rfl⟩ := List.exists_cons_of_ne_nil after
      rfl
    | cons second rest =>
      show first ++ separator :: joinPieces separator (second :: rest ++ back) =
        (first ++ separator :: joinPieces separator (second :: rest)) ++ _
      rw [inductionHypothesis (List.cons_ne_nil _ _), List.append_assoc, List.cons_append]

/-- A text has the pieces of another at its end, after others, if it has the other at its end,
after a separator. -/
theorem pieces_eq_append_iff (separator : Char) (text after : List Char)
    (front : List (List Char)) (some : front ≠ []) :
    pieces separator text = front ++ pieces separator after ↔
      ∃ before, pieces separator before = front ∧ text = before ++ separator :: after := by
  constructor
  · intro cut
    have whole : text = joinPieces separator front ++ separator :: after := by
      rw [← joinPieces_pieces separator text, cut,
        joinPieces_append separator front _ some (pieces_ne_nil separator after),
        joinPieces_pieces]
    refine ⟨joinPieces separator front, ?_, whole⟩
    rw [whole, pieces_append_separator] at cut
    exact List.append_cancel_right cut
  · rintro ⟨before, rfl, rfl⟩
    exact pieces_append_separator separator before after

/-- A text is its last piece, or has it at its end after a separator. -/
theorem eq_or_append_of_getLast?_pieces (separator : Char) (text last : List Char)
    (final : (pieces separator text).getLast? = some last) :
    text = last ∨ ∃ front, text = front ++ separator :: last := by
  obtain ⟨others, cut⟩ := List.getLast?_eq_some_iff.mp final
  have whole := joinPieces_pieces separator text
  rw [cut] at whole
  by_cases none : others = []
  · subst none
    exact Or.inl whole.symm
  · rw [joinPieces_append separator others [last] none (List.cons_ne_nil _ _)] at whole
    exact Or.inr ⟨_, whole.symm⟩

/-! ### Cuts by size -/

/-- The text without its last so many bytes. There is none if the text has fewer, or if a
character would be cut in two. -/
def dropBytes? (text : String) (count : Nat) : Option String :=
  if count ≤ text.utf8ByteSize then
    if valid : String.Pos.Raw.IsValid text ⟨text.utf8ByteSize - count⟩ then
      some (text.sliceTo ⟨_, valid⟩).copy
    else none
  else none

/-- The end of a text can be cut off by its size. -/
theorem dropBytes?_append (front back : String) :
    dropBytes? (front ++ back) back.utf8ByteSize = some front := by
  have size : (front ++ back).utf8ByteSize = front.utf8ByteSize + back.utf8ByteSize :=
    String.utf8ByteSize_append
  have offset : (⟨(front ++ back).utf8ByteSize - back.utf8ByteSize⟩ : String.Pos.Raw) =
      front.rawEndPos := by
    rw [size, Nat.add_sub_cancel]
    rfl
  have valid : String.Pos.Raw.IsValid (front ++ back)
      ⟨(front ++ back).utf8ByteSize - back.utf8ByteSize⟩ :=
    String.Pos.Raw.isValid_iff_exists_append.mpr ⟨front, back, rfl, offset⟩
  rw [dropBytes?, if_pos (size ▸ Nat.le_add_left _ _), dif_pos valid]
  exact congrArg some ((String.Pos.splits _).eq_left ⟨rfl, offset⟩)

/-- A text ends with another if that stands after something. -/
theorem endsWith_iff (text tail : String) :
    text.endsWith tail = true ↔ ∃ front, text = front ++ tail := by
  rw [← String.endsWith_toSlice, String.Slice.endsWith_string_iff, String.copy_toSlice]
  constructor
  · rintro ⟨front, whole⟩
    refine ⟨String.ofList front, String.toList_injective ?_⟩
    rw [String.toList_append, String.toList_ofList, whole]
  · rintro ⟨front, rfl⟩
    rw [String.toList_append]
    exact List.suffix_append _ _

end Text

namespace Name

open Text

/-! ### Labels -/

/-- The label above a parent, with the labels above it, is what the name has before its end. -/
theorem labels_eq_append_iff (name parent : String) (above : List (List Char))
    (label : List Char) :
    labels name = above ++ label :: labels parent ↔
      ∃ before, pieces '.' before = above ++ [label] ∧
        bareChars name.toList = before ++ '.' :: bareChars parent.toList := by
  have split : above ++ label :: labels parent = (above ++ [label]) ++ labels parent := by
    rw [List.append_assoc, List.singleton_append]
  rw [split]
  exact pieces_eq_append_iff '.' _ _ _ (List.append_ne_nil_of_right_ne_nil _
    (List.cons_ne_nil _ _))

theorem bare_ne_empty_iff (name : String) : bare name ≠ "" ↔ bareChars name.toList ≠ [] := by
  rw [bare, ne_eq, ← String.toList_eq_nil_iff, String.toList_ofList]

/-- The labels of a parent end those of a name and are not all of them. -/
theorem isStrictlyUnder_iff_labels (name parent : String) :
    isStrictlyUnder name parent = true ↔
      bare parent ≠ "" ∧ labels parent <:+ labels name ∧ labels parent ≠ labels name := by
  rw [isStrictlyUnder_iff, bare_ne_empty_iff]
  refine and_congr_right fun _ => ?_
  constructor
  · rintro ⟨before, whole⟩
    have cut : labels name = pieces '.' before ++ labels parent := by
      rw [labels, whole, pieces_append_separator, labels]
    refine ⟨⟨pieces '.' before, cut.symm⟩, fun same => pieces_ne_nil '.' before ?_⟩
    rw [cut] at same
    exact List.self_eq_append_left.mp same
  · rintro ⟨⟨above, cut⟩, proper⟩
    have some : above ≠ [] := by
      rintro rfl
      exact proper ((List.nil_append _).symm.trans cut)
    obtain ⟨before, _, whole⟩ := (pieces_eq_append_iff '.' _ _ above some).mp cut.symm
    exact ⟨before, whole⟩

theorem isSome_registeredDomain? (host tld : String) :
    (registeredDomain? host tld).isSome = isStrictlyUnder host tld :=
  Option.isSome_map

/-- The text of a label and what stands after it. -/
theorem ofList_label (label : List Char) (parent : String) :
    String.ofList (label ++ '.' :: bareChars parent.toList) =
      String.ofList label ++ "." ++ bare parent := by
  apply String.toList_injective
  rw [String.toList_append, String.toList_append, bare]
  simp only [String.toList_ofList, List.append_assoc]
  rfl

/-- The registered domain is the label before those of the TLD, and the TLD. The host is it, or
ends in it after a dot. -/
theorem registeredDomain?_eq_some_iff_labels (host tld domain : String) :
    registeredDomain? host tld = some domain ↔ bare tld ≠ "" ∧
      ∃ above label, labels host = above ++ label :: labels tld ∧
        domain = String.ofList label ++ "." ++ bare tld ∧
        (bare host = domain ∨ ∃ front, bare host = front ++ "." ++ domain) := by
  rw [registeredDomain?_eq_some_iff, bare_ne_empty_iff]
  refine and_congr_right fun _ => ?_
  constructor
  · rintro ⟨before, label, whole, last, rfl⟩
    obtain ⟨above, cut⟩ := List.getLast?_eq_some_iff.mp last
    refine ⟨above, label, (labels_eq_append_iff _ _ _ _).mpr ⟨before, cut, whole⟩,
      ofList_label label tld, ?_⟩
    rw [bare, whole]
    rcases eq_or_append_of_getLast?_pieces '.' before label last with rfl | ⟨front, rfl⟩
    · exact Or.inl rfl
    · refine Or.inr ⟨String.ofList front, String.toList_injective ?_⟩
      simp only [String.toList_append, String.toList_ofList, List.append_assoc]
      rfl
  · rintro ⟨above, label, cut, rfl, _⟩
    obtain ⟨before, front, whole⟩ := (labels_eq_append_iff _ _ _ _).mp cut
    exact ⟨before, label, whole, front ▸ List.getLast?_concat, (ofList_label label tld).symm⟩

/-! ### On bytes -/

namespace Bytewise

/-- Whether a name lies strictly under a parent: it is longer, ends in the parent, and what is left
when as many bytes are cut off ends in a dot. -/
def isUnder? (name parent : String) : Option Bool :=
  let name := bare name
  let parent := bare parent
  if name.isEmpty || parent.isEmpty || name.utf8ByteSize ≤ parent.utf8ByteSize then some false
  else if name.endsWith parent then
    (dropBytes? name parent.utf8ByteSize).map fun front => front.endsWith "."
  else some false

/-- The registered domain of a host: what is left when the TLD and one byte more are cut off has
its label after its last dot. -/
def domain? (host tld : String) : Option (Option String) :=
  (isUnder? host tld).bind fun under =>
    if under then
      (dropBytes? (bare host) (bare tld).utf8ByteSize.succ).map fun front =>
        (pieces '.' front.toList).getLast?.map fun label =>
          String.ofList label ++ "." ++ bare tld
    else some none

end Bytewise

/-- The bare form of a name under a parent, cut at the parent's end of it. -/
theorem isStrictlyUnder_iff_bare (name parent : String) :
    isStrictlyUnder name parent = true ↔
      bare parent ≠ "" ∧ ∃ front, bare name = front ++ "." ++ bare parent := by
  rw [isStrictlyUnder_iff, bare_ne_empty_iff]
  refine and_congr_right fun _ => ?_
  constructor
  · rintro ⟨before, whole⟩
    exact ⟨String.ofList before, by rw [bare, whole, ofList_label]⟩
  · rintro ⟨front, whole⟩
    refine ⟨front.toList, String.ofList_injective ?_⟩
    rw [ofList_label, String.ofList_toList]
    exact whole

/-- On bytes the test has an answer, which is that of the test on characters. -/
theorem Bytewise.isUnder?_eq (name parent : String) :
    Bytewise.isUnder? name parent = some (isStrictlyUnder name parent) := by
  unfold Bytewise.isUnder?
  dsimp only
  split
  case isTrue short =>
    have apart : isStrictlyUnder name parent = false := by
      rw [Bool.eq_false_iff, ne_eq, isStrictlyUnder_iff_bare]
      rintro ⟨filled, front, whole⟩
      have size : (bare name).utf8ByteSize =
          front.utf8ByteSize + ".".utf8ByteSize + (bare parent).utf8ByteSize := by
        rw [whole, String.utf8ByteSize_append, String.utf8ByteSize_append]
      have dot : ".".utf8ByteSize = 1 := rfl
      simp only [Bool.or_eq_true, String.isEmpty_iff, decide_eq_true_eq] at short
      rcases short with (empty | empty) | small
      · rw [empty, String.utf8ByteSize_empty] at size
        omega
      · exact filled empty
      · omega
    rw [apart]
  case isFalse long =>
    simp only [Bool.or_eq_true, String.isEmpty_iff, not_or] at long
    obtain ⟨⟨_, filled⟩, _⟩ := long
    split
    case isTrue ends =>
      obtain ⟨front, whole⟩ := (endsWith_iff _ _).mp ends
      rw [whole, dropBytes?_append, Option.map_some]
      refine congrArg some (Bool.eq_iff_iff.mpr ?_)
      rw [endsWith_iff, isStrictlyUnder_iff_bare, whole]
      simp only [String.append_left_inj]
      exact ⟨fun dotted => ⟨filled, dotted⟩, fun under => under.2⟩
    case isFalse other =>
      have apart : isStrictlyUnder name parent = false := by
        rw [Bool.eq_false_iff, ne_eq, isStrictlyUnder_iff_bare]
        rintro ⟨_, front, whole⟩
        exact other ((endsWith_iff _ _).mpr ⟨_, whole⟩)
      rw [apart]

/-- So has the registered domain. -/
theorem Bytewise.domain?_eq (host tld : String) :
    Bytewise.domain? host tld = some (registeredDomain? host tld) := by
  rw [Bytewise.domain?, Bytewise.isUnder?_eq, Option.bind_some]
  cases under : isStrictlyUnder host tld with
  | false =>
    rw [← isSome_registeredDomain?, Option.isSome_eq_false_iff, Option.isNone_iff_eq_none] at under
    rw [under, if_neg Bool.false_ne_true]
  | true =>
    obtain ⟨filled, before, whole⟩ := (isStrictlyUnder_iff host tld).mp under
    obtain ⟨label, last⟩ :=
      Option.isSome_iff_exists.mp (List.getLast?_isSome.mpr (pieces_ne_nil '.' before))
    have registered : registeredDomain? host tld = some (String.ofList label ++ "." ++ bare tld) :=
      (registeredDomain?_eq_some_iff _ _ _).mpr
        ⟨filled, before, label, whole, last, (ofList_label label tld).symm⟩
    have tail : (bare tld).utf8ByteSize.succ = ("." ++ bare tld).utf8ByteSize := by
      have dot : ".".utf8ByteSize = 1 := rfl
      rw [String.utf8ByteSize_append, dot, Nat.add_comm]
    have cut : bare host = String.ofList before ++ ("." ++ bare tld) := by
      rw [bare, whole, ofList_label, String.append_assoc]
    rw [if_pos rfl, tail, cut, dropBytes?_append, registered, Option.map_some,
      String.toList_ofList, last, Option.map_some]

/-- Position in the tree follows labels, and the tests on bytes never make a cut without result.
A name lies strictly under a parent when the parent is not empty and its labels end the name's and
are not all of them. Exactly such a name has a registered domain under the parent: the label before
the parent's labels, a dot and the parent, in which the name ends. -/
theorem position_by_labels (name parent : String) :
    (isStrictlyUnder name parent = true ↔
      bare parent ≠ "" ∧ labels parent <:+ labels name ∧ labels parent ≠ labels name) ∧
    (registeredDomain? name parent).isSome = isStrictlyUnder name parent ∧
    (∀ domain, registeredDomain? name parent = some domain ↔ bare parent ≠ "" ∧
      ∃ above label, labels name = above ++ label :: labels parent ∧
        domain = String.ofList label ++ "." ++ bare parent ∧
        (bare name = domain ∨ ∃ front, bare name = front ++ "." ++ domain)) ∧
    Bytewise.isUnder? name parent = some (isStrictlyUnder name parent) ∧
    Bytewise.domain? name parent = some (registeredDomain? name parent) :=
  ⟨isStrictlyUnder_iff_labels name parent, isSome_registeredDomain? name parent,
    registeredDomain?_eq_some_iff_labels name parent, Bytewise.isUnder?_eq name parent,
    Bytewise.domain?_eq name parent⟩

end Name

end Zonecast
