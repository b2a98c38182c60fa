/-
Rotation states read back from their tags. A tag is a word and a count of milliseconds in decimal,
so what has to be seen is that the count is read as it was written, sign included, and that nothing
of the tag is blank at either end. An instant comes back cut down to its millisecond. If it lies
outside what instants can hold, its tag is read as no rotation state, and never as one of the other
kind.

A time that was tagged has come once the clock shows it or anything later. Between readings that
show no leap second, adding a delay keeps the order and agrees with the time that passes.
-/
import Mathlib.Data.List.Basic
import Zonecast.Proofs.Digits
import Zonecast.Upkeep.Rotation

namespace Zonecast

/-! ### Instants -/

namespace Instant

/-- The instant can be stored as a count of milliseconds and read back. -/
def Representable (instant : Instant) : Prop :=
  firstMillis ≤ instant.toMillis ∧ instant.toMillis ≤ lastMillis

instance (instant : Instant) : Decidable instant.Representable :=
  inferInstanceAs (Decidable (_ ∧ _))

/-- The clock shows no leap second. -/
def Regular (instant : Instant) : Prop :=
  instant.nano < 1000000000

instance (instant : Instant) : Decidable instant.Regular :=
  inferInstanceAs (Decidable (_ < _))

theorem le_iff {first second : Instant} : first.le second = true ↔
    first.second < second.second ∨ first.second = second.second ∧ first.nano ≤ second.nano := by
  unfold le lt
  simp only [Bool.not_eq_true', Bool.or_eq_false_iff, Bool.and_eq_false_iff,
    decide_eq_false_iff_not, beq_eq_false_iff_ne]
  omega

theorem le_refl (instant : Instant) : instant.le instant = true :=
  le_iff.mpr (Or.inr ⟨rfl, Nat.le_refl _⟩)

theorem le_trans {first second third : Instant} (earlier : first.le second = true)
    (later : second.le third = true) : first.le third = true := by
  rw [le_iff] at *
  omega

/-- What is written of an instant is not later than it. -/
theorem ofMillis_toMillis_le {instant : Instant} (regular : instant.Regular) :
    (ofMillis instant.toMillis).le instant = true := by
  unfold Regular at regular
  rw [le_iff]
  simp only [ofMillis, toMillis]
  omega

theorem regular_addMillis (instant : Instant) (millis : Int) :
    (instant.addMillis millis).Regular := by
  simp only [Regular, addMillis]
  omega

/-- A delay keeps the order of instants. -/
theorem addMillis_le {first second : Instant} (millis : Int) (firstRegular : first.Regular)
    (secondRegular : second.Regular) (earlier : first.le second = true) :
    (first.addMillis millis).le (second.addMillis millis) = true := by
  unfold Regular at *
  rw [le_iff] at *
  simp only [addMillis]
  omega

/-- Before a delay after an instant has gone by, less time than the delay has passed since. -/
theorem nanosSince_lt {since reading : Instant} {millis : Int}
    (sinceRegular : since.Regular) (readingRegular : reading.Regular)
    (before : (since.addMillis millis).le reading = false) :
    reading.nanosSince since < millis * 1000000 := by
  unfold Regular at *
  have later : ¬((since.addMillis millis).le reading = true) := by rw [before]; exact nofun
  rw [le_iff] at later
  simp only [addMillis, nanosSince] at *
  rw [if_neg (Nat.not_le.mpr sinceRegular), if_neg (Nat.not_le.mpr readingRegular)]
  simp only [ite_self]
  omega

end Instant

/-! ### Tags -/

namespace Upkeep.Rotation

open Text

/-- No end of a tag is blank. -/
theorem trimChars_tag {tag : List Char} (number : Int) (head : tag.head? = some 'Z') :
    trimChars (tag ++ (toString number).toList) = tag ++ (toString number).toList := by
  refine trimChars_of_edges _ (fun c first => ?_) fun c final => ?_
  · rw [List.head?_append, head] at first
    cases first
    decide
  · obtain ⟨front, last, split, digit⟩ := ends_in_digit number
    rw [split, ← List.append_assoc, List.getLast?_concat] at final
    cases final
    exact isBlank_of_isDigit digit

/-- The count after a tag is read as it was written. -/
theorem afterTag?_append (tag : List Char) {since : Instant} (fits : since.Representable) :
    afterTag? tag (tag ++ (toString since.toMillis).toList) =
      some (Instant.ofMillis since.toMillis) := by
  have low : Int64.minValue.toInt ≤ since.toMillis := Int.le_trans (by decide) fits.1
  have high : since.toMillis ≤ Int64.maxValue.toInt := Int.le_trans fits.2 (by decide)
  have read : (Int64.ofInt since.toMillis).toInt = since.toMillis :=
    Int64.toInt_ofInt_of_le (Int.le_trans (by decide) fits.1)
      (Int.lt_of_le_of_lt fits.2 (by decide))
  have begins : tag.isPrefixOf (tag ++ (toString since.toMillis).toList) = true :=
    List.isPrefixOf_iff_prefix.mpr (List.prefix_append _ _)
  rw [afterTag?, if_pos begins, List.drop_left, String.ofList_toList, readInt64_toString low high]
  dsimp only
  rw [read]
  exact if_pos fits

/-- A count that is read after a tag is the one that was written. -/
theorem eq_of_afterTag?_append {tag : List Char} {number : Int} {since : Instant}
    (read : afterTag? tag (tag ++ (toString number).toList) = some since) :
    since = Instant.ofMillis number := by
  have begins : tag.isPrefixOf (tag ++ (toString number).toList) = true :=
    List.isPrefixOf_iff_prefix.mpr (List.prefix_append _ _)
  rw [afterTag?, if_pos begins, List.drop_left, String.ofList_toList] at read
  split at read
  · rename_i millis stored
    rw [toInt_of_readInt64_toString stored, Instant.ofMillis?] at read
    split at read
    · exact (Option.some.inj read).symm
    · cases read
  · cases read

/-- A tag of one kind is none of the other. -/
theorem afterTag?_other {tag other : List Char} (rest : List Char)
    (apart : ∀ rest, tag.isPrefixOf (other ++ rest) = false) :
    afterTag? tag (other ++ rest) = none := by
  rw [afterTag?, apart rest, if_neg Bool.false_ne_true]

theorem expireTag_apart (rest : List Char) : expireTag.isPrefixOf (activateTag ++ rest) = false :=
  rfl

theorem activateTag_apart (rest : List Char) :
    activateTag.isPrefixOf (expireTag ++ rest) = false :=
  rfl

/-- The time after which a key is to be replaced, read back. -/
theorem ofAccount_expiring {since : Instant} (fits : since.Representable) :
    ofAccount (some (expiring since).toAccount) =
      expiring (Instant.ofMillis since.toMillis) := by
  rw [toAccount, ofAccount, String.toList_append, String.toList_ofList, trimChars_tag _ rfl,
    afterTag?_append _ fits]

/-- The time after which a successor takes over, read back. -/
theorem ofAccount_activating {since : Instant} (fits : since.Representable) :
    ofAccount (some (activating since).toAccount) =
      activating (Instant.ofMillis since.toMillis) := by
  rw [toAccount, ofAccount, String.toList_append, String.toList_ofList, trimChars_tag _ rfl,
    afterTag?_other _ expireTag_apart, afterTag?_append _ fits]

/-- A time after which a successor takes over, if it is read back, is the one that was written. -/
theorem eq_of_ofAccount_activating {since other : Instant}
    (state : ofAccount (some (activating since).toAccount) = activating other) :
    other = Instant.ofMillis since.toMillis := by
  rw [toAccount, ofAccount, String.toList_append, String.toList_ofList, trimChars_tag _ rfl,
    afterTag?_other _ expireTag_apart] at state
  dsimp only at state
  split at state
  · rename_i stored read
    injection state with same
    exact same ▸ eq_of_afterTag?_append read
  · cases state

/-- No time after which a key is to be replaced is read as one after which a successor takes
over, representable or not. -/
theorem ofAccount_expiring_ne_activating (since other : Instant) :
    ofAccount (some (expiring since).toAccount) ≠ activating other := by
  rw [toAccount, ofAccount, String.toList_append, String.toList_ofList, trimChars_tag _ rfl,
    afterTag?_other _ activateTag_apart]
  cases afterTag? expireTag (expireTag ++ (toString since.toMillis).toList) with
  | none => exact Rotation.noConfusion
  | some since => exact Rotation.noConfusion

end Upkeep.Rotation

end Zonecast
