/-
The two written forms of a name, applied one after the other. Bringing a name into canonical form
and then into either form is the same as bringing it into that form at once: the canonical form
has no blank at its ends, exactly one dot at its end, and no capitals.

The bare form has no such law. A blank that stood before the last dots is left at the end of the
bare form, and is trimmed when the bare form is taken again.
-/
import Zonecast.Name.Basic

namespace Zonecast.Text

/-! ### Letters -/

theorem toNat_ofNat_of_lt (code : Nat) (small : code < 0xd800) :
    (Char.ofNat code).toNat = code := by
  rw [Char.ofNat, dif_pos (Or.inl small)]
  rfl

theorem lowerChar_of_capital (c : Char) (capital : 'A' ≤ c ∧ c ≤ 'Z') :
    'a' ≤ lowerChar c ∧ lowerChar c ≤ 'z' := by
  have low : 65 ≤ c.toNat := capital.1
  have high : c.toNat ≤ 90 := capital.2
  have code : (lowerChar c).toNat = c.toNat + 32 := by
    rw [lowerChar, if_pos (by simpa using capital), toNat_ofNat_of_lt _ (by omega)]
  constructor
  · show 97 ≤ (lowerChar c).toNat
    omega
  · show (lowerChar c).toNat ≤ 122
    omega

theorem lowerChar_of_not_capital (c : Char) (other : ¬ ('A' ≤ c ∧ c ≤ 'Z')) : lowerChar c = c := by
  rw [lowerChar, if_neg (by simpa using other)]

theorem lowerChar_lowerChar (c : Char) : lowerChar (lowerChar c) = lowerChar c := by
  by_cases capital : 'A' ≤ c ∧ c ≤ 'Z'
  · refine lowerChar_of_not_capital _ fun again => ?_
    have clash : ('a' : Char) ≤ 'Z' := Char.le_trans (lowerChar_of_capital c capital).1 again.2
    exact absurd clash (by decide)
  · rw [lowerChar_of_not_capital c capital, lowerChar_of_not_capital c capital]

/-- A character below the capitals comes from itself only. -/
theorem lowerChar_eq_iff (c plain : Char) (before : plain < 'A') :
    lowerChar c = plain ↔ c = plain := by
  by_cases capital : 'A' ≤ c ∧ c ≤ 'Z'
  · have code : plain.toNat < 65 := before
    have low : 65 ≤ c.toNat := capital.1
    have small : 97 ≤ (lowerChar c).toNat := (lowerChar_of_capital c capital).1
    constructor <;> rintro rfl <;> omega
  · rw [lowerChar_of_not_capital c capital]

/-- No letter, digit or punctuation mark of ASCII is blank. -/
theorem isBlank_of_visible (c : Char) (low : '!' ≤ c) (high : c ≤ '~') : isBlank c = false := by
  have lowNat : 33 ≤ c.toNat := low
  have highNat : c.toNat ≤ 126 := high
  have apart : ∀ other : Char, other.toNat < 33 ∨ 126 < other.toNat → (c == other) = false := by
    intro other far
    rw [beq_eq_false_iff_ne]
    rintro rfl
    omega
  have tabs : ¬ c ≤ '\x0d' := fun le => by
    have : c.toNat ≤ 13 := le
    omega
  have wide : ¬ '\u2000' ≤ c := fun le => by
    have : 8192 ≤ c.toNat := le
    omega
  simp [isBlank, tabs, wide, apart ' ' (by decide), apart '\u0085' (by decide),
    apart '\u00a0' (by decide), apart '\u1680' (by decide), apart '\u2028' (by decide),
    apart '\u2029' (by decide), apart '\u202f' (by decide), apart '\u205f' (by decide),
    apart '\u3000' (by decide)]

theorem isBlank_lowerChar (c : Char) : isBlank (lowerChar c) = isBlank c := by
  by_cases capital : 'A' ≤ c ∧ c ≤ 'Z'
  · have small := lowerChar_of_capital c capital
    rw [isBlank_of_visible c (Char.le_trans (by decide) capital.1)
        (Char.le_trans capital.2 (by decide)),
      isBlank_of_visible _ (Char.le_trans (by decide) small.1)
        (Char.le_trans small.2 (by decide))]
  · rw [lowerChar_of_not_capital c capital]

/-! ### Dropped ends -/

theorem dropWhile_append_of_head {α : Type} (test : α → Bool) (items more : List α)
    (kept : ∀ item, (items ++ more).head? = some item → test item = false) :
    (items ++ more).dropWhile test = items ++ more := by
  cases whole : items ++ more with
  | nil => rfl
  | cons first rest =>
    rw [List.dropWhile_cons_of_neg]
    rw [whole] at kept
    simp [kept first rfl]

theorem head?_dropWhile_fails {α : Type} (test : α → Bool) (items : List α) (item : α)
    (first : (items.dropWhile test).head? = some item) : test item = false := by
  have fails := List.head?_dropWhile_not test items
  rw [first] at fails
  simpa using fails

/-- What stays when the end is dropped does not end in a dropped member. -/
theorem getLast?_dropEnd_fails {α : Type} (test : α → Bool) (items : List α) (item : α)
    (last : (dropEnd test items).getLast? = some item) : test item = false := by
  rw [dropEnd, List.getLast?_reverse] at last
  exact head?_dropWhile_fails test items.reverse item last

/-- Dropping the end changes nothing where the last member fails the test. -/
theorem dropEnd_of_getLast? {α : Type} (test : α → Bool) (items : List α)
    (kept : ∀ item, items.getLast? = some item → test item = false) :
    dropEnd test items = items := by
  have whole : items.reverse.dropWhile test = items.reverse := by
    have unmoved := dropWhile_append_of_head test items.reverse [] fun item first =>
      kept item (by rwa [List.append_nil, List.head?_reverse] at first)
    rwa [List.append_nil] at unmoved
  rw [dropEnd, whole, List.reverse_reverse]

/-- Trimming changes nothing where neither end is blank. -/
theorem trimChars_of_edges (text : List Char)
    (first : ∀ c, text.head? = some c → isBlank c = false)
    (last : ∀ c, text.getLast? = some c → isBlank c = false) : trimChars text = text := by
  have front : text.dropWhile isBlank = text := by
    have unmoved := dropWhile_append_of_head isBlank text [] fun c head =>
      first c (by rwa [List.append_nil] at head)
    rwa [List.append_nil] at unmoved
  rw [trimChars, front]
  exact dropEnd_of_getLast? _ _ last

/-- Dropping the end leaves the first member first, if it leaves any. -/
theorem head?_of_head?_dropEnd {α : Type} (test : α → Bool) (items : List α) (item : α)
    (first : (dropEnd test items).head? = some item) : items.head? = some item := by
  obtain ⟨rest, whole⟩ := dropEnd_isPrefix test items
  rw [← whole, List.head?_append, first]
  rfl

theorem dropEnd_concat {α : Type} (test : α → Bool) (items : List α) (last : α)
    (dropped : test last = true) : dropEnd test (items ++ [last]) = dropEnd test items := by
  rw [dropEnd, List.reverse_append, List.reverse_singleton, List.singleton_append,
    List.dropWhile_cons_of_pos dropped, dropEnd]

/-- What is dropped with the end of a list passes the test. -/
theorem mem_dropEnd_or {α : Type} (test : α → Bool) {items : List α} {item : α}
    (member : item ∈ items) : item ∈ dropEnd test items ∨ test item = true := by
  rw [← List.mem_reverse, ← List.takeWhile_append_dropWhile (p := test) (l := items.reverse),
    List.mem_append] at member
  rcases member with dropped | kept
  · exact Or.inr (List.all_eq_true.mp List.all_takeWhile item dropped)
  · exact Or.inl (List.mem_reverse.mpr kept)

theorem dropEnd_map {α β : Type} (test : β → Bool) (change : α → β) (items : List α) :
    dropEnd test (items.map change) = (dropEnd (test ∘ change) items).map change := by
  rw [dropEnd, ← List.map_reverse, List.dropWhile_map, ← List.map_reverse, dropEnd]

/-! ### Trimmed text -/

/-- What was trimmed has nothing left to trim. -/
theorem trimChars_trimChars (text : List Char) : trimChars (trimChars text) = trimChars text := by
  refine trimChars_of_edges _ (fun c first => ?_) fun c last => ?_
  · exact head?_dropWhile_fails isBlank text c (head?_of_head?_dropEnd _ _ _ first)
  · exact getLast?_dropEnd_fails isBlank _ c last

theorem mem_of_mem_trimChars {c : Char} {text : List Char} (member : c ∈ trimChars text) :
    c ∈ text :=
  (List.dropWhile_sublist isBlank).subset ((dropEnd_isPrefix isBlank _).subset member)

/-- Text is trimmed alike before it is made small and after. -/
theorem trimChars_map_lowerChar (text : List Char) :
    trimChars (text.map lowerChar) = (trimChars text).map lowerChar := by
  have blanks : isBlank ∘ lowerChar = isBlank := funext isBlank_lowerChar
  rw [trimChars, List.dropWhile_map, dropEnd_map, blanks, trimChars]

@[simp] theorem trim_trim (text : String) : trim (trim text) = trim text := by
  rw [trim, trim, String.toList_ofList, trimChars_trimChars]

theorem trim_lower (text : String) : trim (lower text) = lower (trim text) := by
  rw [trim, lower, lower, trim, String.toList_ofList, String.toList_ofList,
    trimChars_map_lowerChar]

@[simp] theorem lower_lower (text : String) : lower (lower text) = lower text := by
  rw [lower, lower, String.toList_ofList, List.map_map]
  exact congrArg String.ofList (List.map_congr_left fun c _ => lowerChar_lowerChar c)

/-- Only the empty text is made the empty text. -/
theorem lower_eq_empty_iff (text : String) : lower text = "" ↔ text = "" := by
  have small : (lower text).toList = text.toList.map lowerChar := String.toList_ofList
  rw [← String.toList_eq_nil_iff, ← String.toList_eq_nil_iff, small, List.map_eq_nil_iff]

end Zonecast.Text

namespace Zonecast.Name

open Zonecast.Text

/-! ### The bare form -/

/-- The bare form does not start with a blank. -/
theorem head?_bareChars (name : List Char) (c : Char) (first : (bareChars name).head? = some c) :
    isBlank c = false := by
  rw [bareChars, List.head?_map, Option.map_eq_some_iff] at first
  obtain ⟨original, head, rfl⟩ := first
  rw [isBlank_lowerChar]
  have front : (trimChars name).head? = some original := head?_of_head?_dropEnd _ _ _ head
  exact head?_dropWhile_fails isBlank name original (head?_of_head?_dropEnd _ _ _ front)

/-- The bare form does not end in a dot. -/
theorem getLast?_bareChars (name : List Char) (c : Char)
    (last : (bareChars name).getLast? = some c) : (c == '.') = false := by
  rw [bareChars, List.getLast?_map, Option.map_eq_some_iff] at last
  obtain ⟨original, final, rfl⟩ := last
  have kept := getLast?_dropEnd_fails (· == '.') (trimChars name) original final
  rw [beq_eq_false_iff_ne] at kept ⊢
  exact fun dot => kept ((lowerChar_eq_iff original '.' (by decide)).mp dot)

theorem dropEnd_bareChars (name : List Char) :
    dropEnd (· == '.') (bareChars name) = bareChars name :=
  dropEnd_of_getLast? _ _ (getLast?_bareChars name)

theorem dropEnd_bareChars_dot (name : List Char) :
    dropEnd (· == '.') (bareChars name ++ ['.']) = bareChars name := by
  rw [dropEnd_concat _ _ _ (by decide), dropEnd_bareChars]

theorem map_lowerChar_bareChars (name : List Char) :
    (bareChars name).map lowerChar = bareChars name := by
  rw [bareChars, List.map_map]
  exact List.map_congr_left fun c _ => lowerChar_lowerChar c

/-- Trimming a name and making it small beforehand changes nothing. -/
theorem bareChars_lower_trim (name : String) :
    bareChars (lower (trim name)).toList = bareChars name.toList := by
  have small : (lower (trim name)).toList = (trimChars name.toList).map lowerChar := by
    rw [lower, trim, String.toList_ofList, String.toList_ofList]
  have trimmed : trimChars ((trimChars name.toList).map lowerChar) =
      (trimChars name.toList).map lowerChar := by
    rw [trimChars_map_lowerChar, trimChars_trimChars]
  have dots : ((· == '.') ∘ lowerChar) = (· == '.') := by
    funext c
    rw [Function.comp_apply, Bool.eq_iff_iff, beq_iff_eq, beq_iff_eq]
    exact lowerChar_eq_iff c '.' (by decide)
  rw [small, bareChars, trimmed, dropEnd_map, dots]
  exact map_lowerChar_bareChars name.toList

/-- The bare form of a bare form and a dot is that bare form. -/
theorem bareChars_bareChars_dot (name : List Char) :
    bareChars (bareChars name ++ ['.']) = bareChars name := by
  have front : (bareChars name ++ ['.']).dropWhile isBlank = bareChars name ++ ['.'] := by
    refine dropWhile_append_of_head _ _ _ fun c first => ?_
    rw [List.head?_append] at first
    cases head : (bareChars name).head? with
    | none =>
      rw [head] at first
      cases first
      decide
    | some start =>
      rw [head] at first
      cases first
      exact head?_bareChars name c head
  have trimmed : trimChars (bareChars name ++ ['.']) = bareChars name ++ ['.'] := by
    rw [trimChars, front]
    exact dropEnd_append_of_not (by decide) _
  show (dropEnd (· == '.') (trimChars (bareChars name ++ ['.']))).map lowerChar = bareChars name
  rw [trimmed, dropEnd_bareChars_dot, map_lowerChar_bareChars]

theorem toList_canonical (name : String) :
    (canonical name).toList = bareChars name.toList ++ ['.'] :=
  String.toList_ofList

@[simp] theorem bare_canonical (name : String) : bare (canonical name) = bare name := by
  rw [bare, toList_canonical, bareChars_bareChars_dot, bare]

@[simp] theorem canonical_canonical (name : String) :
    canonical (canonical name) = canonical name := by
  show String.ofList (bareChars (canonical name).toList ++ ['.']) = canonical name
  rw [toList_canonical, bareChars_bareChars_dot, canonical]

/-- Names of one bare form have one canonical form. -/
theorem canonical_eq_of_bare_eq (first second : String) (same : bare first = bare second) :
    canonical first = canonical second := by
  have chars : bareChars first.toList = bareChars second.toList := String.ofList_injective same
  rw [canonical, canonical, chars]

end Zonecast.Name
