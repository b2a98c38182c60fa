/-
Replacing a pattern in a text: its occurrences are found from left to right, without overlap, and
each gives way to the same value. Values are not searched again.
-/

namespace Zonecast.Text

/-- Goes through a text of which so many characters still belong to an occurrence. -/
def replaceFrom (pattern value : List Char) : Nat → List Char → List Char
  | _, [] => []
  | skipped + 1, _ :: rest => replaceFrom pattern value skipped rest
  | 0, c :: rest =>
    if pattern.isPrefixOf (c :: rest) then
      value ++ replaceFrom pattern value (pattern.length - 1) rest
    else c :: replaceFrom pattern value 0 rest

/-- The text with every occurrence of a nonempty pattern replaced. -/
def replace (pattern value text : String) : String :=
  String.ofList (replaceFrom pattern.toList value.toList 0 text.toList)

end Zonecast.Text
