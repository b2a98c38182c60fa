/-
Timestamps read back. A number written at a width is read at that width, whatever follows it, so a
timestamp with milliseconds is read part by part: its date exists and has the day number it was
made of, its time of day is what the parts add up to, and a leap second stays one. What is lost is
what lies below a millisecond.

Years before the first and after 9999 are left out, since only years of four digits are read. An
instant that was read has a leap second only after the last second of a minute, which is what
writing it needs.
-/
import Zonecast.Proofs.Calendar
import Zonecast.Proofs.Digits
import Zonecast.Time.Rfc3339

namespace Zonecast

open Zonecast.Text

/-! ### Instants that can be written -/

namespace Instant

/-- The part of a second runs on into a leap second at the end of a minute only. What a clock shows
and what a timestamp denotes is such an instant. -/
structure Writable (instant : Instant) : Prop where
  nano_lt : instant.nano < 2000000000
  leap : 1000000000 ≤ instant.nano → instant.second % 60 = 59

/-- The year of an instant in UTC has four digits. -/
def HasPlainYear (instant : Instant) : Prop :=
  0 ≤ (Time.Date.ofDays (instant.second / 86400)).year ∧
    (Time.Date.ofDays (instant.second / 86400)).year ≤ 9999

/-- The instant without what lies below a millisecond. -/
def wholeMillis (instant : Instant) : Instant :=
  ⟨instant.second, instant.nano / 1000000 * 1000000⟩

end Instant

namespace Time

/-! ### Numbers at a width -/

theorem foldl_digitValue (digits : List Char) (value : Nat) :
    digits.foldl (fun value c => value * 10 + digitValue c) value =
      Nat.ofDigitChars 10 digits value := by
  have order : (fun value c => value * 10 + digitValue c) =
      fun (value : Nat) (c : Char) => 10 * value + (c.toNat - '0'.toNat) := by
    funext value c
    rw [Nat.mul_comm]
    rfl
  rw [order, Nat.ofDigitChars_eq_foldl]

theorem digitValue_lt {c : Char} (digit : isDigit c = true) : digitValue c < 10 := by
  rw [isDigit, Bool.and_eq_true, decide_eq_true_eq, decide_eq_true_eq] at digit
  have high : c.toNat ≤ 57 := digit.2
  show c.toNat - 48 < 10
  omega

/-- So many digits count to less than that power of ten. -/
theorem ofDigitChars_lt (digits : List Char) (decimal : ∀ c ∈ digits, isDigit c = true) :
    Nat.ofDigitChars 10 digits 0 < 10 ^ digits.length := by
  induction digits with
  | nil => decide
  | cons c rest inductionHypothesis =>
    have others := inductionHypothesis fun c member => decimal c (List.mem_cons_of_mem _ member)
    have first : digitValue c < 10 := digitValue_lt (decimal c List.mem_cons_self)
    rw [Nat.ofDigitChars_cons, Nat.ofDigitChars_eq_ofDigitChars_zero, List.length_cons,
      Nat.pow_succ, Nat.mul_zero, Nat.zero_add]
    have most : 10 ^ rest.length * digitValue c ≤ 10 ^ rest.length * 9 :=
      Nat.mul_le_mul_left _ (Nat.le_of_lt_succ first)
    show 10 ^ rest.length * digitValue c + _ < _
    omega

section Padded

variable {width value : Nat}

theorem toList_padded (width value : Nat) : (padded width value).toList =
    List.replicate (width - (Nat.toDigits 10 value).length) '0' ++ Nat.toDigits 10 value := by
  rw [padded, String.toList_append, String.toList_ofList, Nat.toString_eq_ofList_toDigits,
    String.toList_ofList, String.length_ofList]

theorem isDigit_of_mem_padded {c : Char} (member : c ∈ (padded width value).toList) :
    isDigit c = true := by
  rw [toList_padded, List.mem_append, List.mem_replicate] at member
  rcases member with ⟨_, rfl⟩ | written
  · decide
  · exact isDigit_of_mem_toDigits written

theorem length_padded (wide : 0 < width) (fits : value < 10 ^ width) :
    (padded width value).toList.length = width := by
  have short := (Nat.length_toDigits_le_iff (by decide) wide).mpr fits
  rw [toList_padded, List.length_append, List.length_replicate]
  omega

theorem ofDigitChars_padded (width value : Nat) :
    Nat.ofDigitChars 10 (padded width value).toList 0 = value := by
  rw [toList_padded, Nat.ofDigitChars_append, Nat.ofDigitChars_replicate_zero, Nat.mul_zero,
    Nat.ofDigitChars_ten_toDigits]

/-- A number that was written at a width is read at it. -/
theorem takeDigits_padded (wide : 0 < width) (fits : value < 10 ^ width) (rest : List Char) :
    takeDigits width ((padded width value).toList ++ rest) = some (value, rest) := by
  have length := length_padded wide fits
  have decimal : (padded width value).toList.all isDigit = true :=
    List.all_eq_true.mpr fun c member => isDigit_of_mem_padded member
  unfold takeDigits
  rw [List.take_left' length, List.drop_left' length]
  dsimp only
  rw [if_pos ⟨length, decimal⟩, foldl_digitValue, ofDigitChars_padded]

end Padded

/-- Three fraction digits are read as milliseconds. -/
theorem takeFraction_milliseconds {millis : Nat} (fits : millis < 1000) (rest : List Char) :
    takeFraction ('.' :: (padded 3 millis).toList ++ 'Z' :: rest) =
      some (millis * 1000000, 'Z' :: rest) := by
  have length : (padded 3 millis).toList.length = 3 := length_padded (by decide) fits
  have whole : (padded 3 millis).toList ≠ [] := by
    intro empty
    rw [empty] at length
    cases length
  have decimal : ∀ c ∈ (padded 3 millis).toList, isDigit c = true :=
    fun c member => isDigit_of_mem_padded member
  have taken : ((padded 3 millis).toList ++ 'Z' :: rest).takeWhile isDigit =
      (padded 3 millis).toList := by
    rw [List.takeWhile_append_of_pos decimal, List.takeWhile_cons_of_neg (by decide),
      List.append_nil]
  have left : ((padded 3 millis).toList ++ 'Z' :: rest).dropWhile isDigit = 'Z' :: rest := by
    rw [List.dropWhile_append_of_pos decimal, List.dropWhile_cons_of_neg (by decide)]
  rw [List.cons_append, takeFraction, taken, left]
  dsimp only
  split
  · rename_i empty
    exact absurd empty whole
  · have scale : Nat.pow 10 (9 - 3) = 1000000 := by decide
    rw [List.take_of_length_le (by omega), foldl_digitValue, ofDigitChars_padded, length, scale]

/-! ### What is read -/

section Reading

variable {nano : Nat} {offset : Int} {text rest : List Char}

/-- A fraction is less than a second. -/
theorem nano_lt_of_takeFraction (read : takeFraction text = some (nano, rest)) :
    nano < 1000000000 := by
  unfold takeFraction at read
  split at read
  · rename_i rest
    split at read
    · cases read
    · injection read with same
      injection same with equal
      rw [← equal, foldl_digitValue]
      have short : ((rest.takeWhile isDigit).take 9).length ≤ 9 := List.length_take_le _ _
      have digits := ofDigitChars_lt ((rest.takeWhile isDigit).take 9) fun c member =>
        List.all_eq_true.mp List.all_takeWhile c (List.mem_of_mem_take member)
      calc _ < 10 ^ ((rest.takeWhile isDigit).take 9).length *
            10 ^ (9 - ((rest.takeWhile isDigit).take 9).length) :=
          Nat.mul_lt_mul_of_pos_right digits (Nat.pow_pos (by decide))
        _ = 10 ^ 9 := by rw [← Nat.pow_add, Nat.add_sub_cancel' short]
        _ = 1000000000 := rfl
  · injection read with same
    injection same with equal
    rw [← equal]
    decide

/-- An offset is a number of whole minutes. -/
theorem offset_mod_of_takeOffset (read : takeOffset text = some (offset, rest)) :
    offset % 60 = 0 := by
  unfold takeOffset at read
  split at read
  · cases read
  · split at read
    · injection read with same
      injection same with zero
      rw [← zero]
      rfl
    · obtain ⟨negative, _, read⟩ := Option.bind_eq_some_iff.mp read
      obtain ⟨⟨hours, _⟩, _, read⟩ := Option.bind_eq_some_iff.mp read
      obtain ⟨_, _, read⟩ := Option.bind_eq_some_iff.mp read
      obtain ⟨⟨minutes, _⟩, _, read⟩ := Option.bind_eq_some_iff.mp read
      dsimp only at read
      split at read
      · cases read
      · injection read with same
        injection same with whole
        rw [← whole]
        split <;> omega

/-- What a timestamp denotes can be written. -/
theorem writable_of_readTimestamp? {text : String} {instant : Instant}
    (read : readTimestamp? text = some instant) : instant.Writable := by
  -- One step for each part of the text. Which whole minute the parts before the second denote does
  -- not matter, and neither do they reach into the fraction.
  obtain ⟨⟨year, _⟩, _, read⟩ := Option.bind_eq_some_iff.mp read
  obtain ⟨_, _, read⟩ := Option.bind_eq_some_iff.mp read
  obtain ⟨⟨month, _⟩, _, read⟩ := Option.bind_eq_some_iff.mp read
  obtain ⟨_, _, read⟩ := Option.bind_eq_some_iff.mp read
  obtain ⟨⟨day, _⟩, _, read⟩ := Option.bind_eq_some_iff.mp read
  obtain ⟨_, _, read⟩ := Option.bind_eq_some_iff.mp read
  obtain ⟨⟨hour, _⟩, _, read⟩ := Option.bind_eq_some_iff.mp read
  obtain ⟨_, _, read⟩ := Option.bind_eq_some_iff.mp read
  obtain ⟨⟨minute, _⟩, _, read⟩ := Option.bind_eq_some_iff.mp read
  obtain ⟨_, _, read⟩ := Option.bind_eq_some_iff.mp read
  obtain ⟨⟨second, _⟩, _, read⟩ := Option.bind_eq_some_iff.mp read
  obtain ⟨⟨nano, _⟩, fraction, read⟩ := Option.bind_eq_some_iff.mp read
  obtain ⟨⟨offset, _⟩, zone, read⟩ := Option.bind_eq_some_iff.mp read
  have part := nano_lt_of_takeFraction fraction
  have minutes := offset_mod_of_takeOffset zone
  dsimp only at read
  split at read
  · cases read
  · injection read with same
    subst same
    by_cases leap : second = 60
    · subst leap
      constructor
      · show nano + 1000000000 < 2000000000
        omega
      · intro _
        show (_ + (_ + _ + 59) - offset) % 60 = (59 : Int)
        omega
    · rw [if_neg (by simpa using leap), if_neg (by simpa using leap)]
      constructor
      · show nano < 2000000000
        omega
      · intro (late : 1000000000 ≤ nano)
        omega

end Reading

/-! ### What is written -/

/-- A timestamp by its parts. -/
def parts (year month day hour minute second millis : Nat) : List Char :=
  (padded 4 year).toList ++ '-' :: ((padded 2 month).toList ++ '-' :: ((padded 2 day).toList ++
    'T' :: ((padded 2 hour).toList ++ ':' :: ((padded 2 minute).toList ++
      ':' :: ((padded 2 second).toList ++ ('.' :: (padded 3 millis).toList ++ ['Z']))))))

section Writing

/-- The parts of a timestamp are read as they were written. -/
theorem readTimestamp?_parts {year month day hour minute second millis : Nat}
    (fourDigits : year ≤ 9999) (real : Date.exists? ⟨year, month, day⟩ = true) (hours : hour ≤ 23)
    (minutes : minute ≤ 59) (seconds : second ≤ 60) (fraction : millis < 1000) :
    readTimestamp? (String.ofList (parts year month day hour minute second millis)) =
      some ⟨Date.toDays ⟨year, month, day⟩ * 86400 +
          (hour * 3600 + minute * 60 + (if second = 60 then 59 else second : Nat)),
        if second = 60 then millis * 1000000 + 1000000000 else millis * 1000000⟩ := by
  have years : year < 10 ^ 4 := by omega
  have months : month < 10 ^ 2 := Date.month_lt_of_exists? real
  have days : day < 10 ^ 2 := Date.day_lt_of_exists? real
  have hourDigits : hour < 10 ^ 2 := by omega
  have minuteDigits : minute < 10 ^ 2 := by omega
  have secondDigits : second < 10 ^ 2 := by omega
  have separator : ∀ c rest, takeChar c (c :: rest) = some rest := fun c rest => if_pos rfl
  unfold readTimestamp? parts
  rw [String.toList_ofList]
  refine Option.bind_eq_some_iff.mpr ⟨_, takeDigits_padded (by decide) years _, ?_⟩
  refine Option.bind_eq_some_iff.mpr ⟨_, separator '-' _, ?_⟩
  refine Option.bind_eq_some_iff.mpr ⟨_, takeDigits_padded (by decide) months _, ?_⟩
  refine Option.bind_eq_some_iff.mpr ⟨_, separator '-' _, ?_⟩
  refine Option.bind_eq_some_iff.mpr ⟨_, takeDigits_padded (by decide) days _, ?_⟩
  refine Option.bind_eq_some_iff.mpr ⟨_, rfl, ?_⟩
  refine Option.bind_eq_some_iff.mpr ⟨_, takeDigits_padded (by decide) hourDigits _, ?_⟩
  refine Option.bind_eq_some_iff.mpr ⟨_, separator ':' _, ?_⟩
  refine Option.bind_eq_some_iff.mpr ⟨_, takeDigits_padded (by decide) minuteDigits _, ?_⟩
  refine Option.bind_eq_some_iff.mpr ⟨_, separator ':' _, ?_⟩
  refine Option.bind_eq_some_iff.mpr ⟨_, takeDigits_padded (by decide) secondDigits _, ?_⟩
  refine Option.bind_eq_some_iff.mpr ⟨_, takeFraction_milliseconds fraction _, ?_⟩
  refine Option.bind_eq_some_iff.mpr ⟨_, rfl, ?_⟩
  dsimp only
  rw [if_neg (by simp [real]; omega)]
  simp only [beq_iff_eq, Int.sub_zero]
  rfl

variable {instant : Instant}

theorem toList_timestamp (plain : instant.HasPlainYear) :
    (timestamp .milliseconds instant).toList =
      parts (Date.ofDays (instant.second / 86400)).year.toNat
        (Date.ofDays (instant.second / 86400)).month (Date.ofDays (instant.second / 86400)).day
        ((instant.second % 86400).toNat / 3600) ((instant.second % 86400).toNat / 60 % 60)
        ((instant.second % 86400).toNat % 60 + if 1000000000 ≤ instant.nano then 1 else 0)
        ((if 1000000000 ≤ instant.nano then instant.nano - 1000000000 else instant.nano) /
          1000000) := by
  have dash : "-".toList = ['-'] := rfl
  have colon : ":".toList = [':'] := rfl
  have point : ".".toList = ['.'] := rfl
  have divider : "T".toList = ['T'] := rfl
  have zone : "Z".toList = ['Z'] := rfl
  unfold timestamp parts
  simp only [yearText, if_pos (And.intro plain.1 plain.2), String.toList_append, fractionText,
    dash, colon, point, divider, zone, List.append_assoc, List.cons_append, List.nil_append]

/-- A timestamp with milliseconds is read as the instant without what lies below them. -/
theorem readTimestamp?_timestamp (writable : instant.Writable) (plain : instant.HasPlainYear) :
    readTimestamp? (timestamp .milliseconds instant) = some instant.wholeMillis := by
  have whole : timestamp .milliseconds instant =
      String.ofList (timestamp .milliseconds instant).toList := String.ofList_toList.symm
  have date : (⟨((Date.ofDays (instant.second / 86400)).year.toNat : Nat),
      (Date.ofDays (instant.second / 86400)).month,
      (Date.ofDays (instant.second / 86400)).day⟩ : Date) =
      Date.ofDays (instant.second / 86400) := by
    rw [Int.toNat_of_nonneg plain.1]
  have below := writable.nano_lt
  have fourDigits := plain.2
  rw [whole, toList_timestamp plain, readTimestamp?_parts]
  · rw [date, Date.toDays_ofDays]
    by_cases leap : 1000000000 ≤ instant.nano
    · have last := writable.leap leap
      have seconds : (instant.second % 86400).toNat % 60 = 59 := by omega
      rw [if_pos leap, if_pos leap, seconds]
      simp only [Instant.wholeMillis, Option.some.injEq, Instant.mk.injEq, if_true]
      omega
    · rw [if_neg leap, if_neg leap, Nat.add_zero, if_neg (by omega), if_neg (by omega)]
      simp only [Instant.wholeMillis, Option.some.injEq, Instant.mk.injEq, and_true]
      omega
  · omega
  · rw [date]
    exact Date.exists?_ofDays _
  · omega
  · omega
  · split <;> omega
  · split <;> omega

/-- No end of a timestamp is blank. -/
theorem trim_timestamp (plain : instant.HasPlainYear) :
    trim (timestamp .milliseconds instant) = timestamp .milliseconds instant := by
  have fourDigits := plain.2
  have fits : (Date.ofDays (instant.second / 86400)).year.toNat < 10 ^ 4 := by omega
  have unmoved : trimChars (timestamp .milliseconds instant).toList =
      (timestamp .milliseconds instant).toList := by
    refine trimChars_of_edges _ (fun c first => ?_) fun c last => ?_
    · rw [toList_timestamp plain] at first
      have some : (padded 4 (Date.ofDays (instant.second / 86400)).year.toNat).toList ≠ [] :=
        List.ne_nil_of_length_pos (by rw [length_padded (by decide) fits]; decide)
      obtain ⟨digit, others, year⟩ := List.exists_cons_of_ne_nil some
      rw [parts, year] at first
      cases first
      exact isBlank_of_isDigit (isDigit_of_mem_padded (year ▸ List.mem_cons_self))
    · rw [timestamp, String.toList_append, List.getLast?_append] at last
      cases last
      decide
  rw [trim, unmoved, String.ofList_toList]

end Writing

end Time

end Zonecast
