/-
Decimal numbers read back. The reader goes through the digits in order, and stops where the number
leaves the range; further digits never bring a number back into it, so whether it is read depends
on the whole number only. What is written of an integer is read as that integer, sign included, and
nothing of it is blank.
-/
import Mathlib.Data.List.Basic
import Zonecast.Proofs.Names
import Zonecast.Text.Integer

namespace Zonecast.Text

/-! ### Digits onto a value -/

/-- A count, made negative or not. -/
def withSign (negative : Bool) (count : Nat) : Int :=
  if negative then -count else count

/-- Of two counts the smaller lies in every range about zero that the larger lies in. -/
theorem withSign_within {lowest highest : Int} {negative : Bool} {count total : Nat}
    (below : lowest ≤ 0) (above : 0 ≤ highest) (least : count ≤ total)
    (low : lowest ≤ withSign negative total) (high : withSign negative total ≤ highest) :
    lowest ≤ withSign negative count ∧ withSign negative count ≤ highest := by
  cases negative with
  | true =>
    change lowest ≤ -(total : Int) at low
    change lowest ≤ -(count : Int) ∧ -(count : Int) ≤ highest
    omega
  | false =>
    change (total : Int) ≤ highest at high
    change lowest ≤ (count : Int) ∧ (count : Int) ≤ highest
    omega

/-- One more digit. -/
theorem withSign_digit (negative : Bool) (count digit : Nat) :
    (if negative then withSign negative count * 10 - digit
      else withSign negative count * 10 + digit) = withSign negative (10 * count + digit) := by
  cases negative with
  | true =>
    show -(count : Int) * 10 - digit = -((10 * count + digit : Nat) : Int)
    omega
  | false =>
    show (count : Int) * 10 + digit = ((10 * count + digit : Nat) : Int)
    omega

/-- Further digits do not make a count smaller. -/
theorem le_ofDigitChars (digits : List Char) (count : Nat) :
    count ≤ Nat.ofDigitChars 10 digits count := by
  rw [Nat.ofDigitChars_eq_ofDigitChars_zero]
  have scale : 1 * count ≤ 10 ^ digits.length * count :=
    Nat.mul_le_mul_right count (Nat.pow_pos (by decide))
  omega

/-- Digits are read as the number that they stand for, if that is in range. -/
theorem readDigits_eq {lowest highest : Int} (negative : Bool) (digits : List Char) (value : Nat)
    (below : lowest ≤ 0) (above : 0 ≤ highest) (decimal : ∀ c ∈ digits, isDigit c = true)
    (low : lowest ≤ withSign negative (Nat.ofDigitChars 10 digits value))
    (high : withSign negative (Nat.ofDigitChars 10 digits value) ≤ highest) :
    readDigits lowest highest negative (withSign negative value) digits =
      .ok (withSign negative (Nat.ofDigitChars 10 digits value)) := by
  induction digits generalizing value with
  | nil => rfl
  | cons digit rest inductionHypothesis =>
    rw [Nat.ofDigitChars_cons] at low high ⊢
    have inside := withSign_within below above (le_ofDigitChars rest _) low high
    rw [readDigits, decimal digit List.mem_cons_self, if_neg (by decide)]
    dsimp only
    rw [withSign_digit, digitValue, if_neg (Int.not_lt.mpr inside.1),
      if_neg (Int.not_lt.mpr inside.2)]
    exact inductionHypothesis _ (fun c member => decimal c (List.mem_cons_of_mem _ member)) low high

/-- Digits that are read are read as the number that they stand for, which is in range. -/
theorem eq_of_readDigits {lowest highest result : Int} {negative : Bool} {digits : List Char}
    {value : Nat} (low : lowest ≤ withSign negative value)
    (high : withSign negative value ≤ highest) (decimal : ∀ c ∈ digits, isDigit c = true)
    (read : readDigits lowest highest negative (withSign negative value) digits = .ok result) :
    result = withSign negative (Nat.ofDigitChars 10 digits value) ∧
      lowest ≤ result ∧ result ≤ highest := by
  induction digits generalizing value with
  | nil =>
    injection read with same
    subst same
    exact ⟨rfl, low, high⟩
  | cons digit rest inductionHypothesis =>
    rw [readDigits, decimal digit List.mem_cons_self, if_neg (by decide)] at read
    dsimp only at read
    rw [withSign_digit] at read
    split at read
    · cases read
    · rename_i notLow
      split at read
      · cases read
      · rename_i notHigh
        rw [Nat.ofDigitChars_cons]
        exact inductionHypothesis (Int.not_lt.mp notLow) (Int.not_lt.mp notHigh)
          (fun c member => decimal c (List.mem_cons_of_mem _ member)) read

/-! ### What is written -/

/-- What is written of an integer is its digits, after a minus if it is negative. -/
theorem toList_toString (number : Int) :
    (toString number).toList = if number < 0 then '-' :: Nat.toDigits 10 number.natAbs
      else Nat.toDigits 10 number.natAbs := by
  cases number with
  | ofNat count =>
    have natural : ¬Int.ofNat count < 0 := Int.not_lt.mpr (Int.natCast_nonneg count)
    rw [if_neg natural]
    exact (congrArg String.toList Nat.toString_eq_ofList_toDigits).trans String.toList_ofList
  | negSucc count =>
    show ("-" ++ toString (count + 1)).toList = _
    rw [String.toList_append, Nat.toString_eq_ofList_toDigits, String.toList_ofList,
      String.toList_ofList, if_pos (Int.negSucc_lt_zero count)]
    rfl

theorem isDigit_of_mem_toDigits {count : Nat} {c : Char} (member : c ∈ Nat.toDigits 10 count) :
    isDigit c = true :=
  Nat.isDigit_of_mem_toDigits (by decide) (by decide) member

/-- Digits without a sign are read from zero on. -/
theorem readInteger_digits (lowest highest : Int) (count : Nat) :
    readInteger lowest highest (Nat.toDigits 10 count) =
      readDigits lowest highest false 0 (Nat.toDigits 10 count) := by
  cases written : Nat.toDigits 10 count with
  | nil => exact absurd written Nat.toDigits_ne_nil
  | cons first rest =>
    have digit : isDigit first = true :=
      isDigit_of_mem_toDigits (written ▸ List.mem_cons_self)
    have plus : first ≠ '+' := by
      rintro rfl
      exact absurd digit (by decide)
    have minus : first ≠ '-' := by
      rintro rfl
      exact absurd digit (by decide)
    unfold readInteger
    split <;> first | rfl | (rename_i equal; cases equal <;> contradiction)

/-- Digits after a minus are read downwards from zero. -/
theorem readInteger_minus (lowest highest : Int) (count : Nat) (below : lowest < 0) :
    readInteger lowest highest ('-' :: Nat.toDigits 10 count) =
      readDigits lowest highest true 0 (Nat.toDigits 10 count) := by
  cases written : Nat.toDigits 10 count with
  | nil => exact absurd written Nat.toDigits_ne_nil
  | cons first rest => exact if_pos below

/-- What is written of an integer is read as its digits, upwards or downwards from zero. -/
theorem exists_readInteger_toString (lowest highest number : Int) (below : lowest < 0) :
    ∃ negative, withSign negative number.natAbs = number ∧
      readInteger lowest highest (toString number).toList =
        readDigits lowest highest negative (withSign negative 0)
          (Nat.toDigits 10 number.natAbs) := by
  rw [toList_toString]
  by_cases negative : number < 0
  · refine ⟨true, ?_, ?_⟩
    · show -(number.natAbs : Int) = number
      omega
    · rw [if_pos negative, readInteger_minus _ _ _ below]
      rfl
  · refine ⟨false, ?_, ?_⟩
    · show (number.natAbs : Int) = number
      omega
    · rw [if_neg negative, readInteger_digits]
      rfl

/-- What is written of an integer ends in a digit. -/
theorem ends_in_digit (number : Int) :
    ∃ front last, (toString number).toList = front ++ [last] ∧ isDigit last = true := by
  obtain none | ⟨front, last, split⟩ :=
    List.eq_nil_or_concat' (Nat.toDigits 10 number.natAbs)
  · exact absurd none Nat.toDigits_ne_nil
  have written : last ∈ Nat.toDigits 10 number.natAbs := by
    rw [split]
    exact List.mem_append_right _ List.mem_cons_self
  have digit := isDigit_of_mem_toDigits written
  rw [toList_toString, split]
  by_cases negative : number < 0
  · exact ⟨'-' :: front, last, if_pos negative, digit⟩
  · exact ⟨front, last, if_neg negative, digit⟩

theorem isBlank_of_isDigit {c : Char} (digit : isDigit c = true) : isBlank c = false := by
  rw [isDigit, Bool.and_eq_true, decide_eq_true_eq, decide_eq_true_eq] at digit
  exact isBlank_of_visible c (Char.le_trans (by decide) digit.1)
    (Char.le_trans digit.2 (by decide))

/-! ### Read back -/

/-- An integer is read as it was written, if it is in range. -/
theorem readInteger_toString {lowest highest number : Int} (below : lowest < 0)
    (above : 0 ≤ highest) (low : lowest ≤ number) (high : number ≤ highest) :
    readInteger lowest highest (toString number).toList = .ok number := by
  obtain ⟨negative, value, written⟩ := exists_readInteger_toString lowest highest number below
  have digits : withSign negative (Nat.ofDigitChars 10 (Nat.toDigits 10 number.natAbs) 0) =
      number := by
    rw [Nat.ofDigitChars_ten_toDigits, value]
  have read := readDigits_eq negative (Nat.toDigits 10 number.natAbs) 0 (Int.le_of_lt below) above
    (fun c member => isDigit_of_mem_toDigits member) (digits.symm ▸ low) (digits.symm ▸ high)
  rw [written, read, digits]

/-- An integer that is read is the one that was written, and in range. -/
theorem eq_of_readInteger_toString {lowest highest number result : Int}
    (below : lowest < 0) (above : 0 ≤ highest)
    (read : readInteger lowest highest (toString number).toList = .ok result) :
    result = number ∧ lowest ≤ number ∧ number ≤ highest := by
  obtain ⟨negative, value, written⟩ := exists_readInteger_toString lowest highest number below
  have start : withSign negative 0 = 0 := by cases negative <;> rfl
  obtain ⟨equal, within⟩ := eq_of_readDigits (start ▸ Int.le_of_lt below) (start ▸ above)
    (fun c member => isDigit_of_mem_toDigits member) (written.symm.trans read)
  rw [Nat.ofDigitChars_ten_toDigits, value] at equal
  subst equal
  exact ⟨rfl, within⟩

/-- So is an integer of 64 bits. -/
theorem readInt64_toString {number : Int} (low : Int64.minValue.toInt ≤ number)
    (high : number ≤ Int64.maxValue.toInt) :
    readInt64 (toString number) = .ok (Int64.ofInt number) := by
  rw [readInt64, readInteger_toString (by decide) (by decide) low high]
  rfl

/-- An integer of 64 bits that is read is the one that was written. -/
theorem toInt_of_readInt64_toString {number : Int} {result : Int64}
    (read : readInt64 (toString number) = .ok result) : result.toInt = number := by
  unfold readInt64 at read
  cases whole : readInteger Int64.minValue.toInt Int64.maxValue.toInt (toString number).toList with
  | error fault =>
    rw [whole] at read
    cases read
  | ok integer =>
    obtain ⟨rfl, low, high⟩ := eq_of_readInteger_toString (by decide) (by decide) whole
    rw [whole] at read
    injection read with same
    rw [← same]
    exact Int64.toInt_ofInt_of_le low (Int.lt_add_one_of_le high)

end Zonecast.Text
