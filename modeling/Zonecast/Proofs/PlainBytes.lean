/-
Texts cut and searched by their bytes. A byte below 128 is part of no character but the one it is,
since every byte of a longer character is at least 128. So plain characters are found among the
bytes of a text just where they stand in it: a text is cut at a plain separator, or loses a plain
end, alike in characters and in bytes.
-/
import Mathlib.Data.List.DropRight
import Zonecast.Proofs.EncodedText

namespace Zonecast.Text

/-! ### Plain bytes -/

/-- The bytes of a list of characters. -/
def bytesOf (text : List Char) : List UInt8 :=
  text.flatMap String.utf8EncodeChar

theorem utf8_eq_bytesOf (text : String) : utf8 text = bytesOf text.toList := by
  rw [bytesOf, ← utf8_ofList, String.ofList_toList]

theorem bytesOf_append (front back : List Char) :
    bytesOf (front ++ back) = bytesOf front ++ bytesOf back :=
  List.flatMap_append

theorem bytesOf_cons (c : Char) (rest : List Char) :
    bytesOf (c :: rest) = String.utf8EncodeChar c ++ bytesOf rest :=
  List.flatMap_cons

theorem bytesOf_singleton (c : Char) : bytesOf [c] = String.utf8EncodeChar c :=
  List.flatMap_singleton ..

/-- Plain characters are a byte each. -/
theorem bytesOf_of_lt {text : List Char} (plain : ∀ c ∈ text, c.toNat < 128) :
    bytesOf text = text.map Char.toUInt8 := by
  rw [bytesOf, ← utf8_ofList, utf8_ofList_of_lt plain]
  rfl

/-- The bytes of a character that is not plain are not plain. -/
theorem le_of_mem_utf8EncodeChar {c : Char} {byte : UInt8} (wide : 128 ≤ c.toNat)
    (member : byte ∈ String.utf8EncodeChar c) : 128 ≤ byte.toNat := by
  have wideValue : ¬ c.val.toNat ≤ 127 := Nat.not_le.mpr wide
  have offset : ∀ value first : Nat, 128 ≤ first → value + first < 256 →
      128 ≤ (UInt8.ofNat (value + first)).toNat := by
    intro value first high small
    rw [UInt8.toNat_ofNat_of_lt' small]
    omega
  unfold String.utf8EncodeChar at member
  dsimp only at member
  rw [if_neg wideValue] at member
  split at member
  · simp only [List.mem_cons, List.not_mem_nil, or_false] at member
    rcases member with rfl | rfl <;> exact offset _ _ (by decide) (by omega)
  · split at member
    · simp only [List.mem_cons, List.not_mem_nil, or_false] at member
      rcases member with rfl | rfl | rfl <;> exact offset _ _ (by decide) (by omega)
    · simp only [List.mem_cons, List.not_mem_nil, or_false] at member
      rcases member with rfl | rfl | rfl | rfl <;> exact offset _ _ (by decide) (by omega)

theorem char_le_iff_toNat_le (first second : Char) : first ≤ second ↔ first.toNat ≤ second.toNat :=
  Iff.rfl

theorem toNat_toUInt8 {c : Char} (plain : c.toNat < 128) : c.toUInt8.toNat = c.toNat :=
  Nat.mod_eq_of_lt (Nat.lt_trans plain (by decide))

theorem toUInt8_inj {first second : Char} (plain : first.toNat < 128) (other : second.toNat < 128) :
    first.toUInt8 = second.toUInt8 ↔ first = second := by
  rw [← UInt8.toNat_inj, toNat_toUInt8 plain, toNat_toUInt8 other, Char.toNat_inj]

/-- A plain byte is part of no character but the one it is. -/
theorem mem_utf8EncodeChar_iff {mark : Char} (plain : mark.toNat < 128) (c : Char) :
    mark.toUInt8 ∈ String.utf8EncodeChar c ↔ c = mark := by
  have byte := toNat_toUInt8 plain
  by_cases wide : 128 ≤ c.toNat
  · constructor
    · intro member
      have high := le_of_mem_utf8EncodeChar wide member
      omega
    · rintro rfl
      omega
  · rw [utf8EncodeChar_of_lt (Nat.not_le.mp wide), List.mem_singleton]
    exact (toUInt8_inj plain (Nat.not_le.mp wide)).trans eq_comm

theorem mem_bytesOf_iff {mark : Char} (plain : mark.toNat < 128) (text : List Char) :
    mark.toUInt8 ∈ bytesOf text ↔ mark ∈ text := by
  rw [bytesOf, List.mem_flatMap]
  simp only [mem_utf8EncodeChar_iff plain, exists_eq_right]

/-! ### Cuts at a plain character -/

section Separator

variable {separator : Char} (plain : separator.toNat < 128)

include plain

theorem bytesOf_joinPieces (parts : List (List Char)) :
    bytesOf (joinPieces separator parts) =
      [separator.toUInt8].intercalate (parts.map bytesOf) := by
  induction parts with
  | nil => rfl
  | cons first others inductionHypothesis =>
    cases others with
    | nil => simp [joinPieces]
    | cons second rest =>
      show bytesOf (first ++ separator :: joinPieces separator (second :: rest)) = _
      rw [bytesOf_append, bytesOf_cons, inductionHypothesis, utf8EncodeChar_of_lt plain]
      simp only [List.map_cons]
      rw [List.intercalate_cons_cons, List.append_assoc]
      rfl

/-- The bytes of a text are cut where the text is. -/
theorem splitOn_bytesOf (text : List Char) :
    (bytesOf text).splitOn separator.toUInt8 = (pieces separator text).map bytesOf := by
  have clean : ∀ bytes ∈ (pieces separator text).map bytesOf, separator.toUInt8 ∉ bytes := by
    intro bytes member
    obtain ⟨piece, found, rfl⟩ := List.mem_map.mp member
    rw [mem_bytesOf_iff plain]
    exact not_mem_of_mem_pieces separator text piece found
  have some : (pieces separator text).map bytesOf ≠ [] :=
    fun none => pieces_ne_nil separator text (List.map_eq_nil_iff.mp none)
  have joined := bytesOf_joinPieces plain (pieces separator text)
  rw [joinPieces_pieces] at joined
  rw [joined, List.splitOn_intercalate _ clean some]

/-- The end of a text is dropped from its bytes as from its characters. -/
theorem rdropWhile_bytesOf (text : List Char) :
    (bytesOf text).rdropWhile (· == separator.toUInt8) =
      bytesOf (dropEnd (· == separator) text) := by
  induction text using List.reverseRecOn with
  | nil => rfl
  | append_singleton front last inductionHypothesis =>
    by_cases same : last = separator
    · subst same
      rw [bytesOf_append, bytesOf_singleton, utf8EncodeChar_of_lt plain,
        dropEnd_concat (· == last) front last (beq_self_eq_true last), ← inductionHypothesis]
      exact List.rdropWhile_concat_pos _ _ _ (beq_self_eq_true _)
    · have kept : (last == separator) = false := beq_false_of_ne same
      rw [@dropEnd_append_of_not _ (· == separator) last kept, List.rdropWhile_eq_self_iff]
      intro some
      have ends : (bytesOf (front ++ [last])).getLast some ∈ String.utf8EncodeChar last := by
        simp only [bytesOf_append, bytesOf_singleton]
        rw [List.getLast_append_of_ne_nil _ String.utf8EncodeChar_ne_nil]
        exact List.getLast_mem _
      intro dropped
      rw [beq_iff_eq.mp dropped, mem_utf8EncodeChar_iff plain] at ends
      exact same ends

end Separator

end Zonecast.Text
