/-
Decoding that accepts nothing but what is encoded. A text is read from bytes strictly only if they
are its own bytes, since the first byte of a character leaves no room for a longer form, a surrogate
or a value past the last character. Padded base64 is read only if it is what its bytes are written
as, since unused bits have to be zero and the equals signs have to be all there. So each of the two
readings is undone by writing.
-/
import Zonecast.Proofs.EncodedText
import Zonecast.Proofs.Passwords

namespace Zonecast.Text

/-! ### Characters from bytes -/

section Characters

variable {byte low high : UInt8} {following bits value number : Nat} {bytes left : List UInt8}

/-- What a first byte says about the bytes after it, by how many there are. The first range of
three and of four bytes is narrowed at either end. -/
theorem utf8Lead?_cases (lead : utf8Lead? byte = some (following, bits, low, high)) :
    (following = 0 ∧ byte.toNat = bits ∧ bits < 0x80) ∨
    (following = 1 ∧ byte.toNat = bits + 0xc0 ∧ 2 ≤ bits ∧ bits < 32 ∧ low.toNat = 0x80 ∧
      high.toNat = 0xbf) ∨
    (following = 2 ∧ byte.toNat = bits + 0xe0 ∧ bits < 16 ∧ 0x80 ≤ low.toNat ∧
      high.toNat ≤ 0xbf ∧ (bits = 0 → 0xa0 ≤ low.toNat) ∧ (bits = 13 → high.toNat ≤ 0x9f)) ∨
    (following = 3 ∧ byte.toNat = bits + 0xf0 ∧ bits ≤ 4 ∧ 0x80 ≤ low.toNat ∧
      high.toNat ≤ 0xbf ∧ (bits = 0 → 0x90 ≤ low.toNat) ∧ (bits = 4 → high.toNat ≤ 0x8f)) := by
  have small := byte.toNat_lt
  rw [← UInt8.ofNat_toNat (x := byte), utf8Lead?_ofNat _ small] at lead
  generalize byte.toNat = code at lead small
  by_cases ascii : code < 0x80
  · rw [if_pos ascii] at lead
    cases lead
    exact Or.inl ⟨rfl, rfl, ascii⟩
  rw [if_neg ascii] at lead
  by_cases stray : code < 0xc2
  · rw [if_pos stray] at lead
    cases lead
  rw [if_neg stray] at lead
  by_cases two : code < 0xe0
  · rw [if_pos two, Option.some.injEq] at lead
    simp only [Prod.mk.injEq] at lead
    obtain ⟨rfl, rfl, rfl, rfl⟩ := lead
    exact Or.inr (Or.inl ⟨rfl, by omega, by omega, by omega, rfl, rfl⟩)
  rw [if_neg two] at lead
  -- The first and the fourteenth of the leads of three bytes narrow what may follow.
  by_cases first : code = 0xe0
  · rw [if_pos first] at lead
    cases lead
    exact Or.inr (Or.inr (Or.inl ⟨rfl, first, by decide, by decide, by decide,
      fun _ => by decide, nofun⟩))
  rw [if_neg first] at lead
  by_cases surrogates : code = 0xed
  · rw [if_pos surrogates] at lead
    cases lead
    exact Or.inr (Or.inr (Or.inl ⟨rfl, surrogates, by decide, by decide, by decide, nofun,
      fun _ => by decide⟩))
  rw [if_neg surrogates] at lead
  by_cases three : code < 0xf0
  · rw [if_pos three, Option.some.injEq] at lead
    simp only [Prod.mk.injEq] at lead
    obtain ⟨rfl, rfl, rfl, rfl⟩ := lead
    exact Or.inr (Or.inr (Or.inl ⟨rfl, by omega, by omega, by decide, by decide, by omega,
      by omega⟩))
  rw [if_neg three] at lead
  -- So do the first and the last of the leads of four.
  by_cases fourFirst : code = 0xf0
  · rw [if_pos fourFirst] at lead
    cases lead
    exact Or.inr (Or.inr (Or.inr ⟨rfl, fourFirst, by decide, by decide, by decide,
      fun _ => by decide, nofun⟩))
  rw [if_neg fourFirst] at lead
  by_cases four : code < 0xf4
  · rw [if_pos four, Option.some.injEq] at lead
    simp only [Prod.mk.injEq] at lead
    obtain ⟨rfl, rfl, rfl, rfl⟩ := lead
    exact Or.inr (Or.inr (Or.inr ⟨rfl, by omega, by omega, by decide, by decide, by omega,
      by omega⟩))
  rw [if_neg four] at lead
  by_cases last : code = 0xf4
  · rw [if_pos last] at lead
    cases lead
    exact Or.inr (Or.inr (Or.inr ⟨rfl, last, by decide, by decide, by decide, nofun,
      fun _ => by decide⟩))
  rw [if_neg last] at lead
  cases lead

/-- A byte that follows is in its range, and adds six bits. -/
theorem of_utf8Follow_succ {more : Nat} (least : 0x80 ≤ low.toNat)
    (follow : utf8Follow (more + 1) value low high bytes = (some number, left)) :
    ∃ tail rest, bytes = UInt8.ofNat (tail + 0x80) :: rest ∧ low.toNat ≤ tail + 0x80 ∧
      tail + 0x80 ≤ high.toNat ∧
      utf8Follow more (value * 64 + tail) 0x80 0xbf rest = (some number, left) := by
  cases bytes with
  | nil => cases follow
  | cons byte rest =>
    rw [utf8Follow] at follow
    split at follow
    · rename_i within
      rw [Bool.and_eq_true, decide_eq_true_eq, decide_eq_true_eq, UInt8.le_iff_toNat_le,
        UInt8.le_iff_toNat_le] at within
      obtain ⟨atLeast, atMost⟩ := within
      have whole : byte.toNat - 0x80 + 0x80 = byte.toNat := by omega
      refine ⟨byte.toNat - 0x80, rest, ?_, by omega, by omega, follow⟩
      rw [whole, UInt8.ofNat_toNat]
    · cases follow

/-- A byte that follows without a narrowed range is any six bits. -/
theorem of_utf8Follow_tail {more : Nat}
    (follow : utf8Follow (more + 1) value 0x80 0xbf bytes = (some number, left)) :
    ∃ tail rest, bytes = UInt8.ofNat (tail + 0x80) :: rest ∧ tail < 64 ∧
      utf8Follow more (value * 64 + tail) 0x80 0xbf rest = (some number, left) := by
  obtain ⟨tail, rest, whole, _, most, following⟩ :=
    of_utf8Follow_succ (show 0x80 ≤ (0x80 : UInt8).toNat by decide) follow
  have bound : (0xbf : UInt8).toNat = 191 := rfl
  exact ⟨tail, rest, whole, by omega, following⟩

/-- The bytes of a character, by its number. -/
theorem utf8EncodeChar_ofNat (valid : number.isValidChar) :
    String.utf8EncodeChar (Char.ofNat number) =
      if number ≤ 0x7f then [UInt8.ofNat number]
      else if number ≤ 0x7ff then
        [UInt8.ofNat (number / 64 % 32 + 0xc0), UInt8.ofNat (number % 64 + 0x80)]
      else if number ≤ 0xffff then
        [UInt8.ofNat (number / 4096 % 16 + 0xe0), UInt8.ofNat (number / 64 % 64 + 0x80),
          UInt8.ofNat (number % 64 + 0x80)]
      else
        [UInt8.ofNat (number / 262144 % 8 + 0xf0), UInt8.ofNat (number / 4096 % 64 + 0x80),
          UInt8.ofNat (number / 64 % 64 + 0x80), UInt8.ofNat (number % 64 + 0x80)] := by
  have own : (Char.ofNat number).val.toNat = number := by
    rw [Char.ofNat, dif_pos valid]
    rfl
  unfold String.utf8EncodeChar
  rw [own]

/-- What is read as a character are the bytes of that character. -/
theorem eq_utf8EncodeChar_of_lead (lead : utf8Lead? byte = some (following, bits, low, high))
    (follow : utf8Follow following bits low high bytes = (some number, left)) :
    byte :: bytes = String.utf8EncodeChar (Char.ofNat number) ++ left := by
  have first := (UInt8.ofNat_toNat (x := byte)).symm
  rcases utf8Lead?_cases lead with ⟨rfl, code, short⟩ | ⟨rfl, code, least, most, low', high'⟩ |
    ⟨rfl, code, short, low', high', long, plain⟩ | ⟨rfl, code, short, low', high', long, last⟩
  · injection follow with same rest
    obtain rfl := Option.some.inj same
    rw [utf8EncodeChar_ofNat (Or.inl (by omega)), if_pos (by omega), first, code, rest]
    rfl
  · obtain ⟨tail, rest, rfl, tailLow, tailHigh, ended⟩ := of_utf8Follow_succ (by omega) follow
    injection ended with same final
    obtain rfl := Option.some.inj same
    rw [utf8EncodeChar_ofNat (Or.inl (by omega)), if_neg (by omega), if_pos (by omega), first,
      code, final]
    have lead : (bits * 64 + tail) / 64 % 32 = bits := by omega
    have second : (bits * 64 + tail) % 64 = tail := by omega
    rw [lead, second]
    rfl
  · obtain ⟨tail, rest, rfl, tailLow, tailHigh, more⟩ := of_utf8Follow_succ low' follow
    obtain ⟨next, rest, rfl, six, ended⟩ := of_utf8Follow_tail more
    injection ended with same final
    obtain rfl := Option.some.inj same
    have valid : ((bits * 64 + tail) * 64 + next).isValidChar := by
      unfold Nat.isValidChar
      omega
    rw [utf8EncodeChar_ofNat valid, if_neg (by omega), if_neg (by omega), if_pos (by omega), first,
      code, final]
    have lead : ((bits * 64 + tail) * 64 + next) / 4096 % 16 = bits := by omega
    have second : ((bits * 64 + tail) * 64 + next) / 64 % 64 = tail := by omega
    have third : ((bits * 64 + tail) * 64 + next) % 64 = next := by omega
    rw [lead, second, third]
    rfl
  · obtain ⟨tail, rest, rfl, tailLow, tailHigh, more⟩ := of_utf8Follow_succ low' follow
    obtain ⟨next, rest, rfl, six, again⟩ := of_utf8Follow_tail more
    obtain ⟨final, rest, rfl, sixAgain, ended⟩ := of_utf8Follow_tail again
    injection ended with same ending
    obtain rfl := Option.some.inj same
    have valid : (((bits * 64 + tail) * 64 + next) * 64 + final).isValidChar := by
      unfold Nat.isValidChar
      omega
    rw [utf8EncodeChar_ofNat valid, if_neg (by omega), if_neg (by omega), if_neg (by omega), first,
      code, ending]
    have lead : (((bits * 64 + tail) * 64 + next) * 64 + final) / 262144 % 8 = bits := by omega
    have second : (((bits * 64 + tail) * 64 + next) * 64 + final) / 4096 % 64 = tail := by omega
    have third : (((bits * 64 + tail) * 64 + next) * 64 + final) / 64 % 64 = next := by omega
    have fourth : (((bits * 64 + tail) * 64 + next) * 64 + final) % 64 = final := by omega
    rw [lead, second, third, fourth]
    rfl

end Characters

/-! ### Texts from bytes -/

/-- Bytes that are all part of characters are the bytes of those characters. -/
theorem eq_flatMap_of_utf8Chars {bytes : List UInt8} {text : List Char}
    (decoded : utf8Chars bytes = text.map some) : bytes = text.flatMap String.utf8EncodeChar := by
  induction bytes using utf8Chars.induct generalizing text with
  | case1 =>
    rw [utf8Chars] at decoded
    rw [List.map_eq_nil_iff.mp decoded.symm]
    rfl
  | case2 byte rest lead inductionHypothesis =>
    rw [utf8Chars, lead] at decoded
    cases text with
    | nil => cases decoded
    | cons c others =>
      injection decoded with first
      cases first
  | case3 byte rest following bits low high lead inductionHypothesis =>
    rw [utf8Chars, lead] at decoded
    cases text with
    | nil => cases decoded
    | cons c others =>
      injection decoded with first remaining
      obtain ⟨number, found, rfl⟩ := Option.map_eq_some_iff.mp first
      rw [List.flatMap_cons, ← inductionHypothesis remaining]
      exact eq_utf8EncodeChar_of_lead lead (Prod.ext found rfl)

theorem mapM_id_eq_some_iff {α : Type} (items : List (Option α)) (values : List α) :
    items.mapM id = some values ↔ items = values.map some := by
  constructor
  · intro all
    induction items generalizing values with
    | nil =>
      obtain rfl := Option.some.inj all
      rfl
    | cons item rest inductionHypothesis =>
      rw [List.mapM_cons] at all
      obtain ⟨value, present, following⟩ := Option.bind_eq_some_iff.mp all
      obtain ⟨others, found, ended⟩ := Option.bind_eq_some_iff.mp following
      obtain rfl := Option.some.inj ended
      rw [List.map_cons, ← inductionHypothesis others found]
      exact congrArg (· :: rest) present
  · rintro rfl
    have kept : (values.mapM fun value => (pure value : Option α)) = some (values.map id) :=
      List.mapM_pure
    rw [List.map_id] at kept
    rw [List.mapM_map]
    exact kept

/-- A text is read strictly from its own bytes and from no others. -/
theorem ofUtf8?_eq_some_iff (bytes : List UInt8) (text : List Char) :
    ofUtf8? bytes = some text ↔ bytes = utf8 (String.ofList text) := by
  rw [utf8_ofList, ofUtf8?, mapM_id_eq_some_iff]
  constructor
  · exact eq_flatMap_of_utf8Chars
  · rintro rfl
    exact utf8Chars_flatMap text

namespace Base64

/-! ### Base64 -/

/-- A character of the alphabet is that of its value. -/
theorem charOf_of_valueOf? {c : Char} {value : Nat} (found : valueOf? c = some value) :
    charOf value = c ∧ value < 64 := by
  have range : ∀ first last : Char, (first ≤ c && c ≤ last) = true →
      first.toNat ≤ c.toNat ∧ c.toNat ≤ last.toNat := by
    intro first last within
    rw [Bool.and_eq_true, decide_eq_true_eq, decide_eq_true_eq] at within
    exact within
  have own : ∀ number, number = c.toNat → Char.ofNat number = c := by
    rintro _ rfl
    exact Char.ofNat_toNat c
  have codes : 'A'.toNat = 65 ∧ 'Z'.toNat = 90 ∧ 'a'.toNat = 97 ∧ 'z'.toNat = 122 ∧
      '0'.toNat = 48 ∧ '9'.toNat = 57 := by decide
  unfold valueOf? at found
  unfold charOf
  split at found
  · have within := range 'A' 'Z' (by assumption)
    obtain rfl := Option.some.inj found
    exact ⟨by rw [if_pos (by omega), own _ (by omega)], by omega⟩
  · split at found
    · have within := range 'a' 'z' (by assumption)
      obtain rfl := Option.some.inj found
      exact ⟨by rw [if_neg (by omega), if_pos (by omega), own _ (by omega)], by omega⟩
    · split at found
      · have within := range '0' '9' (by assumption)
        obtain rfl := Option.some.inj found
        rw [digitValue]
        exact ⟨by rw [if_neg (by omega), if_neg (by omega), if_pos (by omega), own _ (by omega)],
          by omega⟩
      · split at found
        · rename_i plus
          obtain rfl := Option.some.inj found
          exact ⟨(beq_iff_eq.mp plus).symm, by decide⟩
        · split at found
          · rename_i slash
            obtain rfl := Option.some.inj found
            exact ⟨(beq_iff_eq.mp slash).symm, by decide⟩
          · cases found

/-- What is read without padding is what its bytes are written as. -/
theorem eq_encode_of_decode? {text : List Char} {bytes : List UInt8}
    (decoded : decode? text = some bytes) : text = encode bytes := by
  have number : ∀ value, value < 256 → (UInt8.ofNat value).toNat = value :=
    fun value small => UInt8.toNat_ofNat_of_lt' small
  induction text using decode?.induct generalizing bytes with
  | case1 =>
    obtain rfl := Option.some.inj decoded
    rfl
  | case2 c => cases decoded
  | case3 a b =>
    simp only [decode?, Option.bind_eq_bind, Option.bind_eq_some_iff] at decoded
    obtain ⟨first, one, second, two, ended⟩ := decoded
    obtain ⟨rfl, _⟩ := charOf_of_valueOf? one
    obtain ⟨rfl, _⟩ := charOf_of_valueOf? two
    split at ended
    · obtain rfl := Option.some.inj ended
      rw [encode, number _ (by omega)]
      congr <;> omega
    · cases ended
  | case4 a b c =>
    simp only [decode?, Option.bind_eq_bind, Option.bind_eq_some_iff] at decoded
    obtain ⟨first, one, second, two, third, three, ended⟩ := decoded
    obtain ⟨rfl, _⟩ := charOf_of_valueOf? one
    obtain ⟨rfl, _⟩ := charOf_of_valueOf? two
    obtain ⟨rfl, _⟩ := charOf_of_valueOf? three
    split at ended
    · obtain rfl := Option.some.inj ended
      rw [encode, number _ (by omega), number _ (by omega)]
      congr <;> omega
    · cases ended
  | case5 a b c d rest inductionHypothesis =>
    simp only [decode?, Option.bind_eq_bind, Option.bind_eq_some_iff] at decoded
    obtain ⟨first, one, second, two, third, three, fourth, four, others, found, ended⟩ := decoded
    obtain ⟨rfl, _⟩ := charOf_of_valueOf? one
    obtain ⟨rfl, _⟩ := charOf_of_valueOf? two
    obtain ⟨rfl, _⟩ := charOf_of_valueOf? three
    obtain ⟨rfl, _⟩ := charOf_of_valueOf? four
    obtain rfl := Option.some.inj ended
    rw [encode, number _ (by omega), number _ (by omega), number _ (by omega),
      inductionHypothesis found]
    congr <;> omega

/-- Padded base64 is read if it is what its bytes are written as, and only then. -/
theorem decodePadded?_eq_some_iff (text : List Char) (bytes : List UInt8) :
    decodePadded? text = some bytes ↔ text = encodePadded bytes := by
  unfold decodePadded? encodePadded
  dsimp only
  constructor
  · intro decoded
    split at decoded
    · rename_i padded
      rw [← eq_encode_of_decode? decoded, ← padded]
      have front : List.takeWhile (· != '=') text <+: text := List.takeWhile_prefix _
      exact (List.prefix_iff_eq_append.mp front).symm
    · cases decoded
  · rintro rfl
    have plain : ∀ c ∈ encode bytes, (c != '=') = true :=
      forall_mem_encode (fun c => (c != '=') = true) (by decide) bytes
    have filled : ∀ c ∈ padding (encode bytes).length, ¬ (c != '=') = true := by
      intro c member
      rw [List.eq_of_mem_replicate member]
      decide
    have cut : List.takeWhile (· != '=') (encode bytes ++ padding (encode bytes).length) =
        encode bytes := by
      rw [List.takeWhile_append_of_pos plain]
      cases signs : padding (encode bytes).length with
      | nil => exact List.append_nil _
      | cons c rest =>
        have sign : ¬ (c != '=') = true := filled c (signs ▸ List.mem_cons_self)
        rw [List.takeWhile_cons_of_neg (p := (· != '=')) sign, List.append_nil]
    rw [cut, List.drop_left, if_pos rfl, decode?_encode]

end Base64

end Zonecast.Text
