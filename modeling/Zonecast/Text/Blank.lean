/-
Blank characters and trimming. Names, addresses and timestamps arrive with stray white space
around them, and every one of them is trimmed by the same rule: the characters with the
Unicode property White_Space, 25 of them, are blank and nothing else is. The functions work on
lists of characters, so that what they keep can be said with the list operations; the string
forms only convert at the boundary.
-/

namespace Zonecast.Text

/-! ### The blank characters -/

/-- The characters with the Unicode property White_Space. -/
def isBlank (c : Char) : Bool :=
  ('\x09' ≤ c && c ≤ '\x0d') || c == ' ' || c == '\u0085' || c == '\u00a0' || c == '\u1680' ||
    ('\u2000' ≤ c && c ≤ '\u200a') || c == '\u2028' || c == '\u2029' || c == '\u202f' ||
    c == '\u205f' || c == '\u3000'

/-! ### Trimming -/

/-- Drops the longest end of a list whose members all satisfy the test. -/
def dropEnd {α : Type} (test : α → Bool) (items : List α) : List α :=
  (items.reverse.dropWhile test).reverse

/-- Drops the blank characters at both ends. -/
def trimChars (text : List Char) : List Char :=
  dropEnd isBlank (text.dropWhile isBlank)

/-- The text without the blank characters at its two ends. -/
def trim (text : String) : String :=
  String.ofList (trimChars text.toList)

/-- A list that ends in a member failing the test keeps its end. -/
theorem dropEnd_append_of_not {α : Type} {test : α → Bool} {last : α}
    (kept : test last = false) (items : List α) :
    dropEnd test (items ++ [last]) = items ++ [last] := by
  simp [dropEnd, kept]

/-- What trimming leaves is a stretch of the text: only ends are dropped. -/
theorem dropEnd_isPrefix {α : Type} (test : α → Bool) (items : List α) :
    List.IsPrefix (dropEnd test items) items := by
  have suffix : List.IsSuffix (items.reverse.dropWhile test) items.reverse :=
    List.dropWhile_suffix test
  have turned := List.reverse_prefix.mpr suffix
  simpa [dropEnd] using turned

end Zonecast.Text
