/-
Every account is read exactly. Blank ends aside, it names a rotation state just if it is the tag of
that state and a decimal number, signed or not, that fits into 64 bits and denotes a time that
instants can hold; the time of the state is that number of milliseconds. Every other account is no
rotation state.

What is written of a state comes back as the state, its time cut down to the millisecond. The texts
that are written again as they were read are the empty one and those that name their number in the
shortest form.
-/
import Zonecast.Proofs.RotationTags

namespace Zonecast

/-! ### Decimal numbers -/

namespace Text

/-- The integer that a text of digits stands for, with a sign before them or not. -/
inductive Decimal : List Char → Int → Prop
  | plain (digits : List Char) (some : digits ≠ []) (all : ∀ c ∈ digits, isDigit c = true) :
    Decimal digits (Nat.ofDigitChars 10 digits 0)
  | plus (digits : List Char) (some : digits ≠ []) (all : ∀ c ∈ digits, isDigit c = true) :
    Decimal ('+' :: digits) (Nat.ofDigitChars 10 digits 0)
  | minus (digits : List Char) (some : digits ≠ []) (all : ∀ c ∈ digits, isDigit c = true) :
    Decimal ('-' :: digits) (-Nat.ofDigitChars 10 digits 0)

section Decimal

variable {lowest highest number : Int} {negative : Bool} {first : Char} {digits rest : List Char}

theorem isDigit_of_readDigits {value : Int}
    (read : readDigits lowest highest negative value digits = .ok number) :
    ∀ c ∈ digits, isDigit c = true := by
  induction digits generalizing value with
  | nil => nofun
  | cons digit rest inductionHypothesis =>
    rw [readDigits] at read
    by_cases decimal : isDigit digit = true
    · rw [decimal, if_neg (by decide)] at read
      dsimp only at read
      generalize (if negative = true then value * 10 - (digitValue digit : Int)
        else value * 10 + digitValue digit) = next at read
      split at read
      · cases read
      · split at read
        · cases read
        · exact List.forall_mem_cons.mpr ⟨decimal, inductionHypothesis read⟩
    · rw [Bool.not_eq_true] at decimal
      rw [decimal] at read
      cases read

/-- A text is read onto zero just if it is all digits and stands for a number in range. -/
theorem readDigits_zero_iff (below : lowest ≤ 0) (above : 0 ≤ highest) :
    readDigits lowest highest negative 0 digits = .ok number ↔
      (∀ c ∈ digits, isDigit c = true) ∧
        number = withSign negative (Nat.ofDigitChars 10 digits 0) ∧
          lowest ≤ number ∧ number ≤ highest := by
  have zero : withSign negative 0 = 0 := by cases negative <;> rfl
  constructor
  · intro read
    have decimal := isDigit_of_readDigits read
    rw [← zero] at read
    exact ⟨decimal, eq_of_readDigits (zero.symm ▸ below) (zero.symm ▸ above) decimal read⟩
  · rintro ⟨decimal, rfl, low, high⟩
    have read := readDigits_eq negative digits 0 below above decimal low high
    rwa [zero] at read

theorem Decimal.ne_nil {text : List Char} (decimal : Decimal text number) : text ≠ [] := by
  cases decimal with
  | plain some => assumption
  | plus | minus => exact List.cons_ne_nil _ _

/-- A text that starts with a digit stands for a number without a sign. -/
theorem decimal_cons (plus : first ≠ '+') (minus : first ≠ '-') :
    Decimal (first :: rest) number ↔ (∀ c ∈ first :: rest, isDigit c = true) ∧
      number = Nat.ofDigitChars 10 (first :: rest) 0 := by
  constructor
  · intro decimal
    cases decimal with
    | plain _ _ all => exact ⟨all, rfl⟩
    | plus => exact absurd rfl plus
    | minus => exact absurd rfl minus
  · rintro ⟨all, rfl⟩
    exact .plain _ (List.cons_ne_nil _ _) all

theorem decimal_plus : Decimal ('+' :: digits) number ↔ digits ≠ [] ∧
    (∀ c ∈ digits, isDigit c = true) ∧ number = Nat.ofDigitChars 10 digits 0 := by
  constructor
  · intro decimal
    cases decimal with
    | plain _ _ all => exact absurd (all '+' List.mem_cons_self) (by decide)
    | plus _ some all => exact ⟨some, all, rfl⟩
  · rintro ⟨some, all, rfl⟩
    exact .plus _ some all

theorem decimal_minus : Decimal ('-' :: digits) number ↔ digits ≠ [] ∧
    (∀ c ∈ digits, isDigit c = true) ∧ number = -Nat.ofDigitChars 10 digits 0 := by
  constructor
  · intro decimal
    cases decimal with
    | plain _ _ all => exact absurd (all '-' List.mem_cons_self) (by decide)
    | minus _ some all => exact ⟨some, all, rfl⟩
  · rintro ⟨some, all, rfl⟩
    exact .minus _ some all

/-- An integer is read just if the text stands for it and it is in range. -/
theorem readInteger_eq_ok_iff {text : List Char} (below : lowest < 0) (above : 0 ≤ highest) :
    readInteger lowest highest text = .ok number ↔
      Decimal text number ∧ lowest ≤ number ∧ number ≤ highest := by
  have zero := Int.le_of_lt below
  cases text with
  | nil => exact iff_of_false nofun fun facts => facts.1.ne_nil rfl
  | cons first rest =>
    by_cases plus : first = '+'
    · subst plus
      cases rest with
      | nil => exact iff_of_false nofun fun facts => (decimal_plus.mp facts.1).1 rfl
      | cons second others =>
        show readDigits _ _ false 0 (second :: others) = _ ↔ _
        rw [readDigits_zero_iff zero above, decimal_plus, and_iff_right (List.cons_ne_nil _ _),
          and_assoc]
        rfl
    · by_cases minus : first = '-'
      · subst minus
        cases rest with
        | nil => exact iff_of_false nofun fun facts => (decimal_minus.mp facts.1).1 rfl
        | cons second others =>
          have read : readInteger lowest highest ('-' :: second :: others) =
            readDigits lowest highest true 0 (second :: others) := if_pos below
          rw [read, readDigits_zero_iff zero above, decimal_minus,
            and_iff_right (List.cons_ne_nil _ _), and_assoc]
          rfl
      · have read : readInteger lowest highest (first :: rest) =
            readDigits lowest highest false 0 (first :: rest) := by
          unfold readInteger
          split <;> first | rfl | (rename_i equal; cases equal <;> contradiction)
        rw [read, readDigits_zero_iff zero above, decimal_cons plus minus, and_assoc]
        exact Iff.rfl

end Decimal

/-- An integer of 64 bits is read just if the text stands for it. -/
theorem readInt64_eq_ok_iff {text : String} {result : Int64} :
    readInt64 text = .ok result ↔ Decimal text.toList result.toInt := by
  have whole : readInteger Int64.minValue.toInt Int64.maxValue.toInt text.toList =
      .ok result.toInt ↔ Decimal text.toList result.toInt ∧
        Int64.minValue.toInt ≤ result.toInt ∧ result.toInt ≤ Int64.maxValue.toInt :=
    readInteger_eq_ok_iff (by decide) (by decide)
  rw [and_iff_left ⟨Int64.minValue_le_toInt result, Int64.toInt_le result⟩] at whole
  rw [← whole, readInt64]
  cases read : readInteger Int64.minValue.toInt Int64.maxValue.toInt text.toList with
  | error fault => exact iff_of_false (fun same => by cases same) fun same => by cases same
  | ok number =>
    obtain ⟨_, low, high⟩ := (readInteger_eq_ok_iff (by decide) (by decide)).mp read
    have stored : (Int64.ofInt number).toInt = number :=
      Int64.toInt_ofInt_of_le low (Int.lt_add_one_of_le high)
    constructor
    · intro same
      injection same with same
      rw [← same, stored]
    · intro same
      injection same with same
      exact congrArg Except.ok (same ▸ Int64.ofInt_toInt result)

end Text

/-! ### Times cut down -/

namespace Instant

/-- The instant without the part of a millisecond that it is past. -/
def cutDown (instant : Instant) : Instant :=
  ⟨instant.second, instant.nano / 1000000 * 1000000⟩

theorem ofMillis_toMillis (instant : Instant) (regular : instant.Regular) :
    ofMillis instant.toMillis = instant.cutDown := by
  unfold Regular at regular
  have second : (instant.second * 1000 + (instant.nano / 1000000 : Nat)) / 1000 =
      instant.second := by omega
  have part : ((instant.second * 1000 + (instant.nano / 1000000 : Nat)) % 1000).toNat =
      instant.nano / 1000000 := by omega
  rw [toMillis, ofMillis, second, part, cutDown]

/-- The instant lies that many milliseconds after 1970. -/
def IsMillis (instant : Instant) (millis : Int) : Prop :=
  instant.Regular ∧ instant.second * 1000000000 + instant.nano = millis * 1000000

theorem isMillis_iff {instant : Instant} {millis : Int} :
    instant.IsMillis millis ↔ instant = ofMillis millis := by
  constructor
  · rintro ⟨regular, total⟩
    unfold Regular at regular
    obtain ⟨second, nano⟩ := instant
    dsimp only at regular total
    have seconds : second = millis / 1000 := by omega
    have part : nano = (millis % 1000).toNat * 1000000 := by omega
    rw [seconds, part, ofMillis]
  · rintro rfl
    refine ⟨?_, ?_⟩
    · show (millis % 1000).toNat * 1000000 < 1000000000
      omega
    · show millis / 1000 * 1000000000 + ((millis % 1000).toNat * 1000000 : Nat) = _
      omega

end Instant

/-! ### Accounts -/

namespace Upkeep.Rotation

open Text

/-- The account, its blank ends aside, is the tag and a decimal number of 64 bits, and the instant
is one that can be held and lies that many milliseconds after 1970. -/
def Bears (account : String) (tag : List Char) (since : Instant) : Prop :=
  ∃ digits number, trimChars account.toList = tag ++ digits ∧ Decimal digits number ∧
    (Int64.minValue.toInt ≤ number ∧ number ≤ Int64.maxValue.toInt) ∧ since.Representable ∧
      since.IsMillis number

/-- The number after a tag is read just if it is one that an instant can hold. -/
theorem afterTag?_eq_some_iff {tag : List Char} {account : String} {since : Instant} :
    afterTag? tag (trimChars account.toList) = some since ↔ Bears account tag since := by
  unfold Bears
  generalize trimChars account.toList = text
  constructor
  · intro read
    unfold afterTag? at read
    split at read
    · rename_i begins
      obtain ⟨digits, rfl⟩ := List.isPrefixOf_iff_prefix.mp begins
      rw [List.drop_left] at read
      split at read
      · rename_i millis number
        have decimal := readInt64_eq_ok_iff.mp number
        rw [String.toList_ofList] at decimal
        unfold Instant.ofMillis? at read
        split at read
        · rename_i fits
          obtain rfl := Option.some.inj read
          refine ⟨digits, millis.toInt, rfl, decimal,
            ⟨Int64.minValue_le_toInt millis, Int64.toInt_le millis⟩, ?_,
            Instant.isMillis_iff.mpr rfl⟩
          rw [Instant.Representable, Instant.toMillis_ofMillis]
          exact fits
        · cases read
      · cases read
    · cases read
  · rintro ⟨digits, number, rfl, decimal, ⟨low, high⟩, fits, millis⟩
    obtain rfl := Instant.isMillis_iff.mp millis
    rw [Instant.Representable, Instant.toMillis_ofMillis] at fits
    have stored : (Int64.ofInt number).toInt = number :=
      Int64.toInt_ofInt_of_le low (Int.lt_add_one_of_le high)
    have read : readInt64 (String.ofList digits) = .ok (Int64.ofInt number) := by
      rw [readInt64_eq_ok_iff, String.toList_ofList, stored]
      exact decimal
    rw [afterTag?, if_pos (List.isPrefixOf_iff_prefix.mpr (List.prefix_append _ _)),
      List.drop_left, read]
    dsimp only
    rw [stored]
    exact if_pos fits

/-- An account bears one tag at most. -/
theorem not_bears_both {account : String} {since other : Instant}
    (expires : Bears account expireTag since) : ¬Bears account activateTag other := by
  obtain ⟨digits, _, text, _⟩ := expires
  rintro ⟨others, _, same, _⟩
  cases text.symm.trans same

theorem ofAccount_eq_expiring_iff {account : String} {since : Instant} :
    ofAccount (some account) = expiring since ↔ Bears account expireTag since := by
  rw [← afterTag?_eq_some_iff, ofAccount]
  cases afterTag? expireTag (trimChars account.toList) with
  | some found =>
    dsimp only
    rw [Rotation.expiring.injEq, Option.some.injEq]
  | none =>
    refine iff_of_false (fun same => ?_) (Option.some_ne_none since).symm
    dsimp only at same
    split at same <;> cases same

theorem ofAccount_eq_activating_iff {account : String} {since : Instant} :
    ofAccount (some account) = activating since ↔ Bears account activateTag since := by
  cases expires : afterTag? expireTag (trimChars account.toList) with
  | some found =>
    have bears := afterTag?_eq_some_iff.mp expires
    rw [ofAccount_eq_expiring_iff.mpr bears]
    exact iff_of_false Rotation.noConfusion (not_bears_both bears)
  | none =>
    rw [← afterTag?_eq_some_iff, ofAccount, expires]
    dsimp only
    cases afterTag? activateTag (trimChars account.toList) with
    | some found =>
      dsimp only
      rw [Rotation.activating.injEq, Option.some.injEq]
    | none => exact iff_of_false Rotation.noConfusion (Option.some_ne_none since).symm

/-- The time of a state is one that an instant can hold, and shows no leap second. -/
def IsTimed : Rotation → Prop
  | untracked => True
  | expiring since | activating since => since.Representable ∧ since.Regular

/-- The state, its time cut down to the millisecond. -/
def cutDown : Rotation → Rotation
  | untracked => untracked
  | expiring since => expiring since.cutDown
  | activating since => activating since.cutDown

/-- The text is empty, or a tag and the shortest form of a number that an instant can hold. -/
def IsCanonical (account : String) : Prop :=
  account = "" ∨ ∃ tag ∈ [expireTag, activateTag], ∃ number : Int,
    (Instant.ofMillis number).Representable ∧ account = String.ofList tag ++ toString number

/-- Reading and writing accounts is exact. -/
structure Exact (read : Option String → Rotation) (write : Rotation → String) : Prop where
  /-- What is written of a state comes back, its time cut down to the millisecond. -/
  returned : ∀ state : Rotation, state.IsTimed → read (some (write state)) = state.cutDown
  expires : ∀ account since, read (some account) = expiring since ↔ Bears account expireTag since
  activates : ∀ account since,
    read (some account) = activating since ↔ Bears account activateTag since
  /-- Every other account, and none at all, is no rotation state. -/
  others : ∀ account : String, (∀ since, ¬Bears account expireTag since) →
    (∀ since, ¬Bears account activateTag since) → read (some account) = untracked
  absent : read none = untracked
  /-- Only canonical accounts are written again as they were read. -/
  rewritten : ∀ account : String, write (read (some account)) = account ↔ IsCanonical account

theorem ofAccount_toAccount {state : Rotation} (timed : state.IsTimed) :
    ofAccount (some state.toAccount) = state.cutDown := by
  cases state with
  | untracked => decide
  | expiring since =>
    rw [ofAccount_expiring timed.1, Instant.ofMillis_toMillis _ timed.2, cutDown]
  | activating since =>
    rw [ofAccount_activating timed.1, Instant.ofMillis_toMillis _ timed.2, cutDown]

/-- A time that an account bears is a whole number of milliseconds, which an instant can hold. -/
theorem Bears.representable {account : String} {tag : List Char} {since : Instant}
    (bears : Bears account tag since) : (Instant.ofMillis since.toMillis).Representable := by
  obtain ⟨_, number, _, _, _, fits, millis⟩ := bears
  obtain rfl := Instant.isMillis_iff.mp millis
  rwa [Instant.toMillis_ofMillis]

theorem isCanonical_iff {account : String} :
    (ofAccount (some account)).toAccount = account ↔ IsCanonical account := by
  constructor
  · intro same
    cases state : ofAccount (some account) with
    | untracked =>
      rw [state] at same
      exact .inl same.symm
    | expiring since =>
      rw [state] at same
      have bears := ofAccount_eq_expiring_iff.mp state
      exact .inr ⟨expireTag, List.mem_cons_self, since.toMillis, bears.representable, same.symm⟩
    | activating since =>
      rw [state] at same
      have bears := ofAccount_eq_activating_iff.mp state
      exact .inr ⟨activateTag, List.mem_cons_of_mem _ List.mem_cons_self, since.toMillis,
        bears.representable, same.symm⟩
  · rintro (rfl | ⟨tag, member, number, fits, rfl⟩)
    · decide
    · have millis := Instant.toMillis_ofMillis number
      rcases List.mem_cons.mp member with rfl | later
      · have state := ofAccount_expiring fits
        rw [toAccount, millis] at state
        rw [state, toAccount, millis]
      · obtain rfl := List.mem_singleton.mp later
        have state := ofAccount_activating fits
        rw [toAccount, millis] at state
        rw [state, toAccount, millis]

/-- What is written of a state and what is read of an account agree, whatever the state or the
account. -/
theorem tags_exact : Exact ofAccount toAccount where
  returned _ := ofAccount_toAccount
  expires _ _ := ofAccount_eq_expiring_iff
  activates _ _ := ofAccount_eq_activating_iff
  others account notExpiring notActivating := by
    cases state : ofAccount (some account) with
    | untracked => rfl
    | expiring since => exact absurd (ofAccount_eq_expiring_iff.mp state) (notExpiring since)
    | activating since => exact absurd (ofAccount_eq_activating_iff.mp state) (notActivating since)
  absent := rfl
  rewritten _ := isCanonical_iff

/-- A time before 1970 that is half a millisecond past a whole one, and a number with a sign and a
leading zero between blanks. -/
theorem tags_exact_beforeEpoch :
    (expiring ⟨-2, 999500000⟩).toAccount = "ZSK-EXPIRE:-1001" ∧
      ofAccount (some (expiring ⟨-2, 999500000⟩).toAccount) = expiring ⟨-2, 999000000⟩ ∧
        ofAccount (some " ZSK-ACTIVATE:+07 ") = activating ⟨0, 7000000⟩ :=
  ⟨by decide, tags_exact.returned _ ⟨by decide, by decide⟩, (tags_exact.activates _ _).mpr
    ⟨_, 7, by decide, .plus ['0', '7'] (by decide) (List.all_eq_true.mp rfl), by decide, by decide,
      ⟨by decide, by decide⟩⟩⟩

end Upkeep.Rotation

end Zonecast
