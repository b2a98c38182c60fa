/-
Cutting a text at a separator and joining the pieces again. A name is its labels between dots,
a list of names is written with commas, a form is its pairs between ampersands. Cutting yields
one piece more than there are separators, so it never yields the empty list, and joining gives
back exactly what was cut.
-/

namespace Zonecast.Text

/-- The stretches of a text between its separators, in order. The empty text is one empty piece. -/
def pieces (separator : Char) : List Char → List (List Char)
  | [] => [[]]
  | c :: rest =>
    if c = separator then [] :: pieces separator rest
    else
      match pieces separator rest with
      | [] => [[c]]
      | first :: others => (c :: first) :: others

/-- The pieces with one separator between each two. -/
def joinPieces (separator : Char) : List (List Char) → List Char
  | [] => []
  | [last] => last
  | first :: others => first ++ separator :: joinPieces separator others

theorem pieces_ne_nil (separator : Char) (text : List Char) : pieces separator text ≠ [] := by
  cases text with
  | nil => simp [pieces]
  | cons c rest =>
    rw [pieces]
    split
    · simp
    · split <;> simp

/-- Joining the pieces of a text gives the text. -/
theorem joinPieces_pieces (separator : Char) (text : List Char) :
    joinPieces separator (pieces separator text) = text := by
  induction text with
  | nil => rfl
  | cons c rest inductionHypothesis =>
    rw [pieces]
    split
    · rename_i equal
      subst equal
      cases cut : pieces c rest with
      | nil => exact absurd cut (pieces_ne_nil _ _)
      | cons first others =>
        rw [cut] at inductionHypothesis
        simp [joinPieces, inductionHypothesis]
    · cases cut : pieces separator rest with
      | nil => exact absurd cut (pieces_ne_nil _ _)
      | cons first others =>
        rw [cut] at inductionHypothesis
        cases others with
        | nil => simpa [joinPieces] using inductionHypothesis
        | cons second others => simpa [joinPieces] using inductionHypothesis

/-- The pieces of a string. -/
def split (separator : Char) (text : String) : List String :=
  (pieces separator text.toList).map String.ofList

/-- The strings with one separator between each two. -/
def join (separator : Char) (parts : List String) : String :=
  String.ofList (joinPieces separator (parts.map String.toList))

/-- The list with only the first of equal members kept, in order of first occurrence. -/
def distinct {α : Type} [DecidableEq α] (items : List α) : List α :=
  items.foldl (fun kept item => if item ∈ kept then kept else kept ++ [item]) []

end Zonecast.Text
