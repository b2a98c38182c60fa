/-
Addresses read back. What is written of an address is read as that address: a version 4 address
part by part, a version 6 address group by group up to the double colon and then from there on.
The writer leaves out nothing but zeros, and the reader knows from the number of the other groups
how many they were. The addresses that embed a version 4 one have a text of their own, which the
reader takes as two groups.

So an address is stored as its text without loss, and different addresses have different texts.
-/
import Mathlib.Data.List.Induction
import Zonecast.Proofs.Digits
import Zonecast.Registry.Address

namespace Zonecast.Address

open Zonecast.Text

/-! ### Numbers -/

section Numbers

variable {digitOf : Char → Option Nat} {radix : Nat}

/-- The digits of a number are one digit, or those of its quotient and one more. -/
theorem toDigits_induction {motive : Nat → List Char → Prop} (large : 1 < radix)
    (one : ∀ digit < radix, motive digit [Nat.digitChar digit])
    (more : ∀ number digits, 0 < number / radix → motive (number / radix) digits →
      digits ≠ [] → motive number (digits ++ [Nat.digitChar (number % radix)])) (number : Nat) :
    motive number (Nat.toDigits radix number) := by
  induction number using Nat.strongRecOn with
  | ind number inductionHypothesis =>
    rw [Nat.toDigits_eq_if large]
    split
    · rename_i small
      exact one number small
    · rename_i notSmall
      exact more number _ (Nat.div_pos (Nat.not_lt.mp notSmall) (Nat.zero_lt_of_lt large))
        (inductionHypothesis _ (Nat.div_lt_self (by omega) large)) Nat.toDigits_ne_nil

/-- The reader of a digit knows every digit that is written in the radix. -/
def Knows (digitOf : Char → Option Nat) (radix : Nat) : Prop :=
  ∀ digit < radix, digitOf (Nat.digitChar digit) = some digit

theorem isSome_of_mem_toDigits (large : 1 < radix) (knows : Knows digitOf radix) (number : Nat) :
    ∀ c ∈ Nat.toDigits radix number, (digitOf c).isSome = true := by
  refine toDigits_induction (motive := fun _ digits => ∀ c ∈ digits, (digitOf c).isSome = true)
    large (fun digit small c member => ?_)
    (fun number digits _ before _ c member => ?_) number
  · rw [List.mem_singleton.mp member, knows digit small]
    rfl
  · rcases List.mem_append.mp member with inside | last
    · exact before c inside
    · rw [List.mem_singleton.mp last, knows _ (Nat.mod_lt _ (Nat.zero_lt_of_lt large))]
      rfl

/-- Zero is the only number whose first digit is zero. -/
theorem eq_zero_of_head?_toDigits (large : 1 < radix) (knows : Knows digitOf radix) (number : Nat) :
    (Nat.toDigits radix number).head? = some '0' → number = 0 := by
  refine toDigits_induction (motive := fun number digits => digits.head? = some '0' → number = 0)
    large (fun digit small zero => ?_)
    (fun number digits positive before filled zero => ?_) number
  · have same : Nat.digitChar digit = Nat.digitChar 0 := Option.some.inj zero
    have read := knows digit small
    rw [same, knows 0 (Nat.zero_lt_of_lt large)] at read
    exact (Option.some.inj read).symm
  · rw [List.head?_append_of_ne_nil _ filled] at zero
    exact absurd (before zero) (Nat.ne_of_gt positive)

/-- The digits of a number add up to it. -/
theorem foldl_toDigits (large : 1 < radix) (knows : Knows digitOf radix) (number : Nat) :
    (Nat.toDigits radix number).foldl
      (fun value c => value * radix + (digitOf c).getD 0) 0 = number := by
  refine toDigits_induction
    (motive := fun number digits =>
      digits.foldl (fun value c => value * radix + (digitOf c).getD 0) 0 = number)
    large (fun digit small => ?_) (fun number digits _ before _ => ?_) number
  · rw [List.foldl_cons, List.foldl_nil, knows digit small, Nat.zero_mul, Nat.zero_add,
      Option.getD_some]
  · rw [List.foldl_append, before, List.foldl_cons, List.foldl_nil,
      knows _ (Nat.mod_lt _ (Nat.zero_lt_of_lt large)), Option.getD_some]
    exact Nat.div_add_mod' number radix

/-- A number is read up to what follows its digits. -/
theorem takeNumber_toDigits (large : 1 < radix) (knows : Knows digitOf radix) (most limit : Nat)
    (zeroPrefix : Bool) {number : Nat} {rest : List Char}
    (short : (Nat.toDigits radix number).length ≤ most) (small : number < limit)
    (ends : ∀ c ∈ rest.head?, digitOf c = none) :
    takeNumber digitOf radix most limit zeroPrefix (Nat.toDigits radix number ++ rest) =
      some (number, rest) := by
  have stops : rest.takeWhile (fun c => (digitOf c).isSome) = [] := by
    cases rest with
    | nil => rfl
    | cons c rest => rw [List.takeWhile_cons, ends c rfl]; rfl
  have digits : (Nat.toDigits radix number ++ rest).takeWhile (fun c => (digitOf c).isSome) =
      Nat.toDigits radix number := by
    rw [List.takeWhile_append_of_pos (isSome_of_mem_toDigits large knows number), stops,
      List.append_nil]
  have filled : (Nat.toDigits radix number).isEmpty = false := by
    rw [List.isEmpty_eq_false_iff]
    exact Nat.toDigits_ne_nil
  have plain : ((Nat.toDigits radix number).head? == some '0' &&
      decide (1 < (Nat.toDigits radix number).length)) = false := by
    rw [Bool.and_eq_false_imp]
    intro zero
    rw [eq_zero_of_head?_toDigits large knows number (eq_of_beq zero),
      Nat.toDigits_of_lt_base (Nat.zero_lt_of_lt large)]
    rfl
  unfold takeNumber
  simp only [digits, foldl_toDigits large knows]
  rw [filled, Bool.and_assoc, plain]
  simp [Nat.not_lt.mpr short, Nat.not_le.mpr small]

end Numbers

/-- What is left of a text after a number is what follows its digits. -/
theorem eq_dropWhile_of_takeNumber {digitOf : Char → Option Nat} {radix most limit value : Nat}
    {zeroPrefix : Bool} {text rest : List Char}
    (taken : takeNumber digitOf radix most limit zeroPrefix text = some (value, rest)) :
    rest = text.dropWhile fun c => (digitOf c).isSome := by
  unfold takeNumber at taken
  dsimp only at taken
  split at taken
  · cases taken
  · have same : List.drop _ text = rest := congrArg Prod.snd (Option.some.inj taken)
    calc rest = List.drop (text.takeWhile fun c => (digitOf c).isSome).length
          ((text.takeWhile fun c => (digitOf c).isSome) ++
            text.dropWhile fun c => (digitOf c).isSome) := by
            rw [List.takeWhile_append_dropWhile, same]
      _ = text.dropWhile fun c => (digitOf c).isSome := List.drop_left

theorem knows_decimalValue? : Knows decimalValue? 10 := by
  unfold Knows
  decide

theorem knows_hexValue? : Knows hexValue? 16 := by
  unfold Knows
  decide

/-! ### Version 4 -/

theorem toList_v4Text (a b c d : Nat) :
    (v4Text a b c d).toList = Nat.toDigits 10 a ++ '.' :: (Nat.toDigits 10 b ++
      '.' :: (Nat.toDigits 10 c ++ '.' :: Nat.toDigits 10 d)) := by
  simp [v4Text, String.toList_append]

/-- A byte is read after its separator, up to what follows its digits. -/
theorem takePart_byte (first : Bool) (byte : UInt8) {text rest : List Char}
    (separated : takeSeparator '.' first text = some (Nat.toDigits 10 byte.toNat ++ rest))
    (ends : ∀ c ∈ rest.head?, decimalValue? c = none) :
    takePart first text = some (byte, rest) := by
  have small : byte.toNat < 256 := byte.toNat_lt
  have short : (Nat.toDigits 10 byte.toNat).length ≤ 3 :=
    (Nat.length_toDigits_le_iff (by decide) (by decide)).mpr (Nat.lt_trans small (by decide))
  have number := takeNumber_toDigits (by decide) knows_decimalValue? 3 256 false short small ends
  simp [takePart, separated, number]

/-- A version 4 address is read up to what follows its last digit. -/
theorem takeV4_v4Text (a b c d : UInt8) (rest : List Char)
    (ends : ∀ c ∈ rest.head?, decimalValue? c = none) :
    takeV4 ((v4Text a.toNat b.toNat c.toNat d.toNat).toList ++ rest) =
      some ((a, b, c, d), rest) := by
  have dot : ∀ (text : List Char), ∀ c ∈ ('.' :: text).head?, decimalValue? c = none := by
    rintro text c ⟨⟩
    decide
  simp only [takeV4, toList_v4Text, List.append_assoc, List.cons_append]
  rw [takePart_byte true a rfl (dot _)]
  simp only [Option.bind_eq_bind, Option.bind_some]
  rw [takePart_byte false b rfl (dot _)]
  simp only [Option.bind_some]
  rw [takePart_byte false c rfl (dot _)]
  simp only [Option.bind_some]
  rw [takePart_byte false d rfl ends]
  rfl

/-- A text without a dot after its first digits is no version 4 address. -/
theorem takeV4_eq_none {text : List Char}
    (undotted : (text.dropWhile fun c => (decimalValue? c).isSome).head? ≠ some '.') :
    takeV4 text = none := by
  have unseparated : ∀ rest, rest.head? ≠ some '.' → takePart false rest = none := by
    intro rest other
    cases rest with
    | nil => rfl
    | cons c rest =>
      have apart : c ≠ '.' := fun same => other (congrArg some same)
      simp [takePart, takeSeparator, apart]
  cases number : takeNumber decimalValue? 10 3 256 false text with
  | none => simp [takeV4, takePart, takeSeparator, number]
  | some taken =>
    obtain ⟨value, rest⟩ := taken
    have first : takePart true text = some (UInt8.ofNat value, rest) := by
      simp [takePart, takeSeparator, number]
    have second : takePart false rest = none :=
      unseparated rest (eq_dropWhile_of_takeNumber number ▸ undotted)
    simp [takeV4, first, second]

/-! ### Groups -/

/-- The digits of a group. -/
def groupDigits (group : UInt16) : List Char :=
  Nat.toDigits 16 group.toNat

/-- Groups with a colon before each. -/
def groupsTail (groups : List UInt16) : List Char :=
  groups.flatMap fun group => ':' :: groupDigits group

theorem toList_groupsText_cons (group : UInt16) (groups : List UInt16) :
    (groupsText (group :: groups)).toList = groupDigits group ++ groupsTail groups := by
  have written : ∀ groups : List UInt16, (groups.map groupText).map String.toList =
      groups.map groupDigits := fun groups => by
    rw [List.map_map]
    exact List.map_congr_left fun group _ => String.toList_ofList
  rw [groupsText, join, String.toList_ofList, written]
  induction groups generalizing group with
  | nil => simp [joinPieces, groupsTail]
  | cons second groups inductionHypothesis =>
    have shorter := inductionHypothesis second
    rw [List.map_cons] at shorter ⊢
    rw [List.map_cons, joinPieces, shorter, groupsTail, groupsTail, List.flatMap_cons]
    · rfl
    · exact List.cons_ne_nil _ _

/-- Nothing, or a colon: what ends a group. -/
def EndsGroup (rest : List Char) : Prop :=
  ∀ c ∈ rest.head?, c = ':'

/-- Nothing, or a double colon: what ends a sequence of groups. -/
def EndsGroups (rest : List Char) : Prop :=
  rest = [] ∨ ∃ more, rest = ':' :: ':' :: more

theorem EndsGroup.decimal {rest : List Char} (ends : EndsGroup rest) :
    ∀ c ∈ rest.head?, decimalValue? c = none := by
  intro c head
  rw [ends c head]
  decide

theorem EndsGroup.undotted {rest : List Char} (ends : EndsGroup rest) :
    (rest.dropWhile fun c => (decimalValue? c).isSome).head? ≠ some '.' := by
  have whole : rest.dropWhile (fun c => (decimalValue? c).isSome) = rest := by
    cases rest with
    | nil => rfl
    | cons c rest => rw [List.dropWhile_cons, ends.decimal c rfl]; rfl
  rw [whole]
  intro dot
  exact absurd (ends '.' dot) (by decide)

/-- The start of a group is not taken for a version 4 address: behind its decimal digits is a
letter, or the end of the group. -/
theorem takeV4_groupDigits (group : UInt16) {rest : List Char} (ends : EndsGroup rest) :
    takeV4 (groupDigits group ++ rest) = none := by
  refine takeV4_eq_none ?_
  rw [List.dropWhile_append]
  split
  · exact ends.undotted
  · rename_i filled
    intro dot
    rw [List.head?_append_of_ne_nil _ (by simpa using filled)] at dot
    have member := List.dropWhile_subset _ (List.mem_of_head? dot)
    exact absurd (isSome_of_mem_toDigits (by decide) knows_hexValue? _ _ member) (by decide)

theorem takeNumber_groupDigits (group : UInt16) {rest : List Char} (ends : EndsGroup rest) :
    takeNumber hexValue? 16 4 65536 true (groupDigits group ++ rest) =
      some (group.toNat, rest) := by
  have short : (Nat.toDigits 16 group.toNat).length ≤ 4 :=
    (Nat.length_toDigits_le_iff (by decide) (by decide)).mpr group.toNat_lt
  refine takeNumber_toDigits (by decide) knows_hexValue? 4 65536 true short group.toNat_lt
    fun c head => ?_
  rw [ends c head]
  decide

/-- One group is read, and then the others. -/
theorem takeGroups_group (first : Bool) (left : Nat) (group : UInt16) {text rest : List Char}
    (separated : takeSeparator ':' first text = some (groupDigits group ++ rest))
    (ends : EndsGroup rest) :
    takeGroups first (left + 1) text =
      (group :: (takeGroups false left rest).1, (takeGroups false left rest).2) := by
  have plain : (if left = 0 then none else
      (some (groupDigits group ++ rest)).bind takeV4) = none := by
    rw [Option.bind_some, takeV4_groupDigits group ends, ite_self]
  rw [takeGroups, separated, plain, Option.bind_some, takeNumber_groupDigits group ends]
  simp

/-- No group is read where none begins. -/
theorem takeGroups_stop (first : Bool) (left : Nat) {text : List Char}
    (ends : ∀ inner, takeSeparator ':' first text = some inner → EndsGroup inner) :
    takeGroups first left text = ([], false, text) := by
  cases left with
  | zero => rfl
  | succ left =>
    cases separated : takeSeparator ':' first text with
    | none => rw [takeGroups, separated, Option.bind_none, Option.bind_none, ite_self]
    | some inner =>
      have ended := ends inner separated
      have noDigit : inner.takeWhile (fun c => (hexValue? c).isSome) = [] := by
        cases inner with
        | nil => rfl
        | cons c rest => rw [List.takeWhile_cons, ended c rfl]; rfl
      have noNumber : takeNumber hexValue? 16 4 65536 true inner = none := by
        rw [takeNumber, noDigit]
        rfl
      have noPart : takeV4 inner = none := takeV4_eq_none ended.undotted
      rw [takeGroups, separated, Option.bind_some, Option.bind_some, noPart, noNumber, ite_self]

theorem EndsGroups.endsGroup {rest : List Char} (ends : EndsGroups rest) : EndsGroup rest := by
  rcases ends with rfl | ⟨more, rfl⟩
  · rintro c ⟨⟩
  · rintro c ⟨⟩
    rfl

theorem endsGroup_groupsTail (groups : List UInt16) {rest : List Char} (ends : EndsGroup rest) :
    EndsGroup (groupsTail groups ++ rest) := by
  cases groups with
  | nil => exact ends
  | cons group groups =>
    rintro c ⟨⟩
    rfl

/-- Groups with a colon before each are read up to what ends them. -/
theorem takeGroups_groupsTail (groups : List UInt16) {left : Nat} {rest : List Char}
    (room : groups.length ≤ left) (ends : EndsGroups rest) :
    takeGroups false left (groupsTail groups ++ rest) = (groups, false, rest) := by
  induction groups generalizing left with
  | nil =>
    refine takeGroups_stop false left fun inner separated => ?_
    rcases ends with rfl | ⟨more, rfl⟩
    · cases separated
    · obtain rfl : ':' :: more = inner := Option.some.inj separated
      rintro c ⟨⟩
      rfl
  | cons group groups inductionHypothesis =>
    obtain ⟨left, rfl⟩ := Nat.exists_eq_add_of_le' (Nat.lt_of_lt_of_le (Nat.succ_pos _) room)
    have others := inductionHypothesis (Nat.le_of_succ_le_succ room)
    have separated : takeSeparator ':' false (groupsTail (group :: groups) ++ rest) =
        some (groupDigits group ++ (groupsTail groups ++ rest)) := by
      simp [groupsTail, takeSeparator]
    rw [takeGroups_group false left group separated (endsGroup_groupsTail groups ends.endsGroup),
      others]

/-- Groups with colons between them are read up to what ends them. -/
theorem takeGroups_groupsText (groups : List UInt16) (left : Nat) {rest : List Char}
    (room : groups.length ≤ left) (ends : EndsGroups rest) :
    takeGroups true left ((groupsText groups).toList ++ rest) = (groups, false, rest) := by
  cases groups with
  | nil =>
    refine takeGroups_stop true left fun inner separated => ?_
    obtain rfl : rest = inner := Option.some.inj separated
    exact ends.endsGroup
  | cons group groups =>
    obtain ⟨left, rfl⟩ := Nat.exists_eq_add_of_le' (Nat.lt_of_lt_of_le (Nat.succ_pos _) room)
    have others := takeGroups_groupsTail groups (Nat.le_of_succ_le_succ room) ends
    have separated : takeSeparator ':' true ((groupsText (group :: groups)).toList ++ rest) =
        some (groupDigits group ++ (groupsTail groups ++ rest)) := by
      rw [toList_groupsText_cons, List.append_assoc]
      rfl
    rw [takeGroups_group true left group separated (endsGroup_groupsTail groups ends.endsGroup),
      others]

/-! ### Runs of zeros -/

/-- Groups that are zero, from a start on. -/
structure IsZeroRun (groups : List UInt16) (run : Nat × Nat) : Prop where
  inside : run.1 + run.2 ≤ groups.length
  zero : ∀ index, run.1 ≤ index → index < run.1 + run.2 → groups[index]? = some 0

theorem IsZeroRun.empty {groups : List UInt16} : IsZeroRun groups (0, 0) :=
  ⟨Nat.zero_le _, fun _ _ below => absurd below (Nat.not_lt_zero _)⟩

theorem IsZeroRun.append {groups : List UInt16} {run : Nat × Nat} (known : IsZeroRun groups run)
    (more : List UInt16) : IsZeroRun (groups ++ more) run where
  inside := by
    rw [List.length_append]
    exact Nat.le_add_right_of_le known.inside
  zero index above below := by
    rw [List.getElem?_append_left (Nat.lt_of_lt_of_le below known.inside)]
    exact known.zero index above below

/-- A run up to the end goes on with one zero more. -/
theorem IsZeroRun.extend {groups : List UInt16} {start length : Nat}
    (known : IsZeroRun groups (start, length)) (last : start + length = groups.length) :
    IsZeroRun (groups ++ [0]) (start, length + 1) where
  inside := by
    rw [List.length_append, List.length_singleton]
    exact Nat.le_of_eq (congrArg (· + 1) last)
  zero index above below := by
    rcases Nat.lt_or_ge index groups.length with before | behind
    · rw [List.getElem?_append_left before]
      exact known.zero index above (Nat.lt_of_lt_of_eq before last.symm)
    · obtain rfl : index = groups.length := by
        have next : index < start + (length + 1) := below
        omega
      rw [List.getElem?_concat_length]

/-- A run of zeros taken out leaves what is before it and what is behind it. -/
theorem IsZeroRun.split {groups : List UInt16} {start length : Nat}
    (known : IsZeroRun groups (start, length)) :
    groups.take start ++ List.replicate length 0 ++ groups.drop (start + length) = groups := by
  have inside : start + length ≤ groups.length := known.inside
  have zeros : (groups.drop start).take length = List.replicate length 0 := by
    refine List.eq_replicate_iff.mpr ⟨?_, fun group member => ?_⟩
    · rw [List.length_take, List.length_drop]
      omega
    · obtain ⟨index, found⟩ := List.mem_iff_getElem?.mp member
      have below : index < length := by
        rw [List.getElem?_take] at found
        split at found
        · assumption
        · cases found
      rw [List.getElem?_take_of_lt below, List.getElem?_drop,
        known.zero _ (Nat.le_add_right _ _) (Nat.add_lt_add_left below _)] at found
      exact (Option.some.inj found).symm
  rw [← zeros, List.append_assoc, ← List.drop_drop, List.take_append_drop, List.take_append_drop]

/-- What the search for zeros knows after some groups: how many they were, the run that they end
in and the longest run so far. -/
structure Searched (groups : List UInt16) (state : Nat × (Nat × Nat) × (Nat × Nat)) : Prop where
  count : state.1 = groups.length
  current : IsZeroRun groups state.2.1
  last : state.2.1.2 ≠ 0 → state.2.1.1 + state.2.1.2 = groups.length
  longest : IsZeroRun groups state.2.2

/-- One group more in the search for zeros. -/
def searchOn (state : Nat × (Nat × Nat) × (Nat × Nat)) (group : UInt16) :
    Nat × (Nat × Nat) × (Nat × Nat) :=
  if group = 0 then
    let current := (if state.2.1.2 = 0 then state.1 else state.2.1.1, state.2.1.2 + 1)
    (state.1 + 1, current, if state.2.2.2 < current.2 then current else state.2.2)
  else (state.1 + 1, (0, 0), state.2.2)

theorem longestZeroRun_eq_foldl (groups : List UInt16) :
    longestZeroRun groups = (groups.foldl searchOn (0, (0, 0), (0, 0))).2.2 := rfl

theorem Searched.searchOn {groups : List UInt16} {state : Nat × (Nat × Nat) × (Nat × Nat)}
    (known : Searched groups state) (group : UInt16) :
    Searched (groups ++ [group]) (searchOn state group) := by
  obtain ⟨index, ⟨start, length⟩, longest⟩ := state
  obtain ⟨count, current, last, found⟩ := known
  have size : (groups ++ [group]).length = groups.length + 1 := List.length_append
  unfold Address.searchOn
  split
  · rename_i zero
    subst zero
    have extended :
        IsZeroRun (groups ++ [0]) (if length = 0 then index else start, length + 1) := by
      split
      · rename_i none
        subst none
        refine IsZeroRun.extend ⟨Nat.le_of_eq count, fun place above below => ?_⟩ count
        exact absurd below (Nat.not_lt.mpr above)
      · rename_i some
        exact current.extend (last some)
    refine ⟨?_, extended, fun _ => ?_, ?_⟩
    · rw [size]
      exact congrArg (· + 1) count
    · rw [size]
      dsimp only
      split
      · rename_i none
        subst none
        exact congrArg (· + 1) count
      · rename_i some
        exact congrArg (· + 1) (last some)
    · dsimp only
      split
      · exact extended
      · exact found.append _
  · refine ⟨?_, .empty, fun none => absurd rfl none, found.append _⟩
    rw [size]
    exact congrArg (· + 1) count

/-- The longest run of zeros is a run of zeros. -/
theorem isZeroRun_longestZeroRun (groups : List UInt16) :
    IsZeroRun groups (longestZeroRun groups) := by
  rw [longestZeroRun_eq_foldl]
  suffices searched : Searched groups (groups.foldl searchOn (0, (0, 0), (0, 0))) from
    searched.longest
  induction groups using List.reverseRecOn with
  | nil => exact ⟨rfl, .empty, fun none => absurd rfl none, .empty⟩
  | append_singleton groups group inductionHypothesis =>
    rw [List.foldl_append, List.foldl_cons, List.foldl_nil]
    exact inductionHypothesis.searchOn group

/-! ### Version 6 -/

/-- Groups written in full are read as they are. -/
theorem takeV6_groupsText (groups : List UInt16) (size : groups.length = 8) :
    takeV6 (groupsText groups).toList = (ofGroups? groups).map (·, []) := by
  have taken := takeGroups_groupsText groups 8 (Nat.le_of_eq size) (Or.inl rfl)
  rw [List.append_nil] at taken
  rw [takeV6, taken]
  exact if_pos size

/-- Behind a double colon are as many zeros as there are groups missing. -/
theorem takeV6_compressed (head tail : List UInt16) (text : List Char) (embedded : Bool)
    (room : head.length + tail.length < 8)
    (taken : takeGroups true (7 - head.length) text = (tail, embedded, [])) :
    takeV6 ((groupsText head).toList ++ ':' :: ':' :: text) =
      (ofGroups? (head ++ List.replicate (8 - head.length - tail.length) 0 ++ tail)).map
        (·, []) := by
  have first := takeGroups_groupsText head 8 (by omega)
    (Or.inr ⟨text, rfl⟩ : EndsGroups (':' :: ':' :: text))
  have few : head.length ≠ 8 := by omega
  rw [takeV6, first]
  simp only [few, if_false, Bool.false_eq_true, taken]

/-- Two bytes make their group. -/
theorem group_bytes (value : UInt16) :
    group (UInt8.ofNat (value.toNat / 256)) (UInt8.ofNat (value.toNat % 256)) = value := by
  have high : value.toNat / 256 < 256 := by
    have := value.toNat_lt
    omega
  rw [group, UInt8.toNat_ofNat_of_lt' high, UInt8.toNat_ofNat_of_lt' (Nat.mod_lt _ (by decide)),
    Nat.div_add_mod', UInt16.ofNat_toNat]

/-- A version 4 address behind a group is read as two groups. -/
theorem takeGroups_embedded (left : Nat) (first high low : UInt16) :
    takeGroups true (left + 3) (groupDigits first ++ ':' :: (v4Text (high.toNat / 256)
      (high.toNat % 256) (low.toNat / 256) (low.toNat % 256)).toList) =
        ([first, high, low], true, []) := by
  have byte : ∀ value : UInt16, value.toNat / 256 < 2 ^ 8 := fun value => by
    have := value.toNat_lt
    omega
  have taken := takeV4_v4Text (UInt8.ofNat (high.toNat / 256)) (UInt8.ofNat (high.toNat % 256))
    (UInt8.ofNat (low.toNat / 256)) (UInt8.ofNat (low.toNat % 256)) [] (by rintro c ⟨⟩)
  rw [UInt8.toNat_ofNat_of_lt' (byte high), UInt8.toNat_ofNat_of_lt' (byte low),
    UInt8.toNat_ofNat_of_lt' (Nat.mod_lt _ (by decide)),
    UInt8.toNat_ofNat_of_lt' (Nat.mod_lt _ (by decide)), List.append_nil] at taken
  rw [takeGroups_group true (left + 2) first rfl (by rintro c ⟨⟩; rfl)]
  simp only [takeGroups, takeSeparator, Bool.false_eq_true, if_false, if_true,
    Nat.succ_ne_zero, Option.bind_some, taken, group_bytes]

/-- The text of an address that embeds a version 4 one. -/
theorem toList_v6Text_embedded (high low : UInt16) :
    (v6Text [0, 0, 0, 0, 0, 0xffff, high, low]).toList =
      (groupsText []).toList ++ ':' :: ':' :: (groupDigits 0xffff ++
        ':' :: (v4Text (high.toNat / 256) (high.toNat % 256) (low.toNat / 256)
          (low.toNat % 256)).toList) := by
  have first : groupDigits 0xffff = ['f', 'f', 'f', 'f'] := by decide
  rw [v6Text, String.toList_append, first]
  rfl

/-- The text of groups of which a run of zeros is left out. -/
theorem toList_compressed (head tail : List UInt16) :
    (groupsText head ++ "::" ++ groupsText tail).toList =
      (groupsText head).toList ++ ':' :: ':' :: (groupsText tail).toList := by
  rw [String.toList_append, String.toList_append, List.append_assoc]
  rfl

/-- The three forms of a text: embedding a version 4 address, in full, or without one run of at
least two zeros. -/
theorem v6Text_cases (groups : List UInt16) :
    (∃ high low, groups = [0, 0, 0, 0, 0, 0xffff, high, low]) ∨
      v6Text groups = groupsText groups ∨
      ∃ start length, IsZeroRun groups (start, length) ∧ 1 < length ∧
        v6Text groups =
          groupsText (groups.take start) ++ "::" ++ groupsText (groups.drop (start + length)) := by
  unfold v6Text
  split
  · rename_i high low
    exact Or.inl ⟨high, low, rfl⟩
  · dsimp only
    split
    · rename_i long
      exact Or.inr (Or.inr ⟨_, _, isZeroRun_longestZeroRun groups, long, rfl⟩)
    · exact Or.inr (Or.inl rfl)

theorem takeV6_v6Text (groups : List UInt16) (size : groups.length = 8) :
    takeV6 (v6Text groups).toList = (ofGroups? groups).map (·, []) := by
  obtain ⟨high, low, rfl⟩ | full | ⟨start, length, run, long, short⟩ := v6Text_cases groups
  · rw [toList_v6Text_embedded,
      takeV6_compressed [] [0xffff, high, low] _ true (Nat.lt_of_sub_eq_succ rfl)
        (takeGroups_embedded 4 _ _ _)]
    rfl
  · rw [full]
    exact takeV6_groupsText groups size
  · have inside : start + length ≤ 8 := size ▸ run.inside
    have headSize : (groups.take start).length = start := by
      rw [List.length_take]
      omega
    have tailSize : (groups.drop (start + length)).length = 8 - (start + length) := by
      rw [List.length_drop, size]
    have missing : 8 - (groups.take start).length - (groups.drop (start + length)).length =
        length := by
      omega
    have taken := takeGroups_groupsText (groups.drop (start + length))
      (7 - (groups.take start).length) (by omega) (Or.inl rfl)
    rw [List.append_nil] at taken
    rw [short, toList_compressed, takeV6_compressed _ _ _ false (by omega) taken, missing,
      run.split]

/-- No version 6 address begins as a version 4 address. -/
theorem takeV4_v6Text (groups : List UInt16) : takeV4 (v6Text groups).toList = none := by
  have groupsFirst : ∀ (groups : List UInt16) (rest : List Char), EndsGroup rest →
      takeV4 ((groupsText groups).toList ++ rest) = none := by
    intro groups rest ends
    cases groups with
    | nil => exact takeV4_eq_none ends.undotted
    | cons group groups =>
      rw [toList_groupsText_cons, List.append_assoc]
      exact takeV4_groupDigits group (endsGroup_groupsTail groups ends)
  have colon : ∀ text, EndsGroup (':' :: text) := by
    rintro text c ⟨⟩
    rfl
  obtain ⟨high, low, rfl⟩ | full | ⟨start, length, -, -, short⟩ := v6Text_cases groups
  · rw [toList_v6Text_embedded]
    exact groupsFirst _ _ (colon _)
  · have whole := groupsFirst groups [] (by rintro c ⟨⟩)
    rwa [List.append_nil, ← full] at whole
  · rw [short, toList_compressed]
    exact groupsFirst _ _ (colon _)

/-! ### Addresses -/

/-- What is written of an address is read as the address. -/
theorem read?_text (address : Address) : read? address.text = some address := by
  cases address with
  | v4 a b c d =>
    have taken := takeV4_v4Text a b c d [] (by rintro c ⟨⟩)
    rw [List.append_nil] at taken
    unfold read?
    dsimp only [text]
    rw [taken]
  | v6 groups =>
    have size : groups.toList.length = 8 := groups.length_toList
    unfold read?
    dsimp only [text]
    rw [takeV4_v6Text, takeV6_v6Text _ size]
    simp [ofGroups?, Vector.toList]

/-- Different addresses have different texts. -/
theorem text_injective : Function.Injective Address.text := fun first second same =>
  Option.some.inj ((read?_text first).symm.trans ((congrArg read? same).trans (read?_text second)))

end Zonecast.Address
