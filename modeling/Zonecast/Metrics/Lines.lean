/-
An exposition line by line, in an order that does not hang on the order of the samples in it: the
lines between two comment lines stand in the order of their label texts, those of one label text
as they are. The bound of a bucket does not count as part of its label text. A line without braces
has the empty label text; so have the parts of a line that a label value breaks.
-/
import Zonecast.Text.Pieces

namespace Zonecast.Metrics

open Zonecast.Text

/-! ### Label texts -/

/-- What follows the first of these characters. -/
def after? (mark : Char) (text : List Char) : Option (List Char) :=
  match text.dropWhile (· != mark) with
  | [] => none
  | _ :: rest => some rest

/-- What stands before the last of these characters. -/
def beforeLast? (mark : Char) (text : List Char) : Option (List Char) :=
  (after? mark text.reverse).map List.reverse

/-- Label text without the bound of a bucket at its front. -/
def withoutBound (labels : List Char) : List Char :=
  match labels with
  | 'l' :: 'e' :: '=' :: '"' :: rest =>
    match rest.dropWhile (· != '"') with
    | '"' :: ',' :: others => others
    | _ => labels
  | _ => labels

/-- The label text of a line: what stands between the braces. -/
def lineLabels (line : String) : String :=
  String.ofList (((after? '\x7b' line.toList).bind (beforeLast? '\x7d')).elim [] withoutBound)

/-! ### Lines -/

/-- The lines of a text, each up to its line feed and without a carriage return before that. -/
def lines (text : String) : List String :=
  let ended := (pieces '\n' text.toList).dropLast.map fun line =>
    if line.getLast? = some '\r' then line.dropLast else line
  let last := ((pieces '\n' text.toList).getLast?.getD [])
  (if last.isEmpty then ended else ended ++ [last]).map String.ofList

/-- Whether a line is a comment. -/
def isComment (line : String) : Bool :=
  line.toList.head? == some '#'

/-- Lines in the order of their label texts. -/
def inLabelOrder (samples : List String) : List String :=
  samples.mergeSort fun first second => decide (lineLabels first ≤ lineLabels second)

/-- Lines in order, after samples that stand before them. -/
def arrange (samples : List String) : List String → List String
  | [] => inLabelOrder samples
  | line :: rest =>
    if isComment line then inLabelOrder samples ++ line :: arrange [] rest
    else arrange (samples ++ [line]) rest

/-- The lines of an exposition in order. -/
def orderedLines (exposition : String) : List String :=
  arrange [] (lines exposition)

end Zonecast.Metrics
