/-
Domain names as text. Two written forms are used throughout: the bare form (trimmed, no dots at
the end, lower case), which keys the registry and the locks, and the canonical form (the bare
form and one dot), which the zone backend speaks. Whether one name lies under another is decided
on bare forms: the parent must end the name, and a dot must stand right before it. A name is
never under itself.

`labels` is the view in which these tests read as statements about lists: the pieces of the bare
form between its dots.
-/
import Zonecast.Text.Blank
import Zonecast.Text.Letter
import Zonecast.Text.Pieces

namespace Zonecast.Name

open Zonecast.Text

/-! ### Written forms -/

/-- The characters of the bare form. Dots are dropped after trimming, so a blank that stood
before the last dots stays. -/
def bareChars (name : List Char) : List Char :=
  (dropEnd (· == '.') (trimChars name)).map lowerChar

/-- Trimmed, without dots at the end, lower case: `example.test`. -/
def bare (name : String) : String :=
  String.ofList (bareChars name.toList)

/-- The bare form with one dot at the end: `example.test.`. -/
def canonical (name : String) : String :=
  String.ofList (bareChars name.toList ++ ['.'])

/-- The labels of a name: the pieces of its bare form between dots. -/
def labels (name : String) : List (List Char) :=
  pieces '.' (bareChars name.toList)

/-! ### Position in the tree -/

/-- What stands before `parent` at the end of `name`, the dot between them included, when both
are bare and `name` lies strictly under `parent`. -/
def aboveParent? (name parent : List Char) : Option (List Char) :=
  let front := name.take (name.length - parent.length)
  if !parent.isEmpty && parent.isSuffixOf name && front.getLast? == some '.' then some front
  else none

/-- Whether `name` lies strictly under `parent`. -/
def isStrictlyUnder (name parent : String) : Bool :=
  (aboveParent? (bareChars name.toList) (bareChars parent.toList)).isSome

/-- The registered domain of `host` within `tld`: the label directly under the TLD and the TLD.
There is none unless the host lies under the TLD. -/
def registeredDomain? (host tld : String) : Option String :=
  let parent := bareChars tld.toList
  (aboveParent? (bareChars host.toList) parent).map fun front =>
    let label := (pieces '.' front.dropLast).getLast?.getD []
    String.ofList (label ++ '.' :: parent)

end Zonecast.Name
