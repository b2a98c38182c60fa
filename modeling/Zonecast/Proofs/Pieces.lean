/-
Pieces of a text and texts of pieces. Cutting at a separator and joining undo each other as long
as no piece holds the separator, and no piece that comes of cutting does. The last piece of a text
is what stands after its last separator, whatever comes before.
-/
import Zonecast.Text.Pieces

namespace Zonecast.Text

/-! ### Joined pieces -/

/-- What is joined is cut again where it was joined. -/
theorem pieces_append_separator (separator : Char) (before after : List Char) :
    pieces separator (before ++ separator :: after) =
      pieces separator before ++ pieces separator after := by
  induction before with
  | nil =>
    show pieces separator (separator :: after) = [] :: pieces separator after
    rw [pieces, if_pos rfl]
  | cons c rest inductionHypothesis =>
    rw [List.cons_append, pieces, pieces, inductionHypothesis]
    split
    · rw [List.cons_append]
    · cases cut : pieces separator rest with
      | nil => exact absurd cut (pieces_ne_nil separator rest)
      | cons first others => rw [List.cons_append, List.cons_append]

/-- A text without the separator is one piece. -/
theorem pieces_of_not_mem (separator : Char) (text : List Char) (clean : separator ∉ text) :
    pieces separator text = [text] := by
  induction text with
  | nil => rfl
  | cons c others inductionHypothesis =>
    have apart : ¬ c = separator := fun same => clean (same ▸ List.mem_cons_self)
    rw [pieces, if_neg apart,
      inductionHypothesis fun member => clean (List.mem_cons_of_mem _ member)]

/-- A first piece without the separator is cut off whole. -/
theorem pieces_append (separator : Char) (first rest : List Char) (clean : separator ∉ first) :
    pieces separator (first ++ separator :: rest) = first :: pieces separator rest := by
  rw [pieces_append_separator, pieces_of_not_mem separator first clean, List.singleton_append]

/-- Cutting what was joined gives the parts, if no part holds the separator. -/
theorem pieces_joinPieces (separator : Char) (parts : List (List Char)) (some : parts ≠ [])
    (clean : ∀ part ∈ parts, separator ∉ part) :
    pieces separator (joinPieces separator parts) = parts := by
  induction parts with
  | nil => exact absurd rfl some
  | cons first others inductionHypothesis =>
    cases others with
    | nil => exact pieces_of_not_mem separator first (clean first List.mem_cons_self)
    | cons second rest =>
      rw [joinPieces, pieces_append separator first _ (clean first List.mem_cons_self),
        inductionHypothesis (List.cons_ne_nil _ _) fun part member =>
          clean part (List.mem_cons_of_mem _ member)]
      exact List.cons_ne_nil _ _

/-- A character of a joined text is the separator or one of a part. -/
theorem mem_joinPieces {separator c : Char} {parts : List (List Char)}
    (member : c ∈ joinPieces separator parts) : c = separator ∨ ∃ part ∈ parts, c ∈ part := by
  induction parts with
  | nil => exact absurd member List.not_mem_nil
  | cons first others inductionHypothesis =>
    cases others with
    | nil => exact Or.inr ⟨first, List.mem_cons_self, member⟩
    | cons second rest =>
      have whole : c ∈ first ++ separator :: joinPieces separator (second :: rest) := member
      rw [List.mem_append, List.mem_cons] at whole
      rcases whole with inFirst | same | later
      · exact Or.inr ⟨first, List.mem_cons_self, inFirst⟩
      · exact Or.inl same
      · rcases inductionHypothesis later with same | ⟨part, held, found⟩
        · exact Or.inl same
        · exact Or.inr ⟨part, List.mem_cons_of_mem _ held, found⟩

/-! ### The pieces of a text -/

/-- No piece holds the separator. -/
theorem not_mem_of_mem_pieces (separator : Char) (text piece : List Char)
    (member : piece ∈ pieces separator text) : separator ∉ piece := by
  induction text generalizing piece with
  | nil =>
    obtain rfl := List.mem_singleton.mp member
    exact List.not_mem_nil
  | cons c rest inductionHypothesis =>
    rw [pieces] at member
    by_cases cut : c = separator
    · rw [if_pos cut] at member
      rcases List.mem_cons.mp member with rfl | later
      · exact List.not_mem_nil
      · exact inductionHypothesis piece later
    · rw [if_neg cut] at member
      cases split : pieces separator rest with
      | nil => exact absurd split (pieces_ne_nil separator rest)
      | cons first others =>
        rw [split] at member inductionHypothesis
        rcases List.mem_cons.mp member with rfl | later
        · have clean := inductionHypothesis first List.mem_cons_self
          intro held
          rcases List.mem_cons.mp held with same | inFirst
          · exact cut same.symm
          · exact clean inFirst
        · exact inductionHypothesis piece (List.mem_cons_of_mem _ later)

/-- The last piece does not depend on what stands before a separator. -/
theorem getLast?_pieces_append (separator : Char) (before after : List Char) :
    (pieces separator (before ++ separator :: after)).getLast? =
      (pieces separator after).getLast? := by
  obtain ⟨last, found⟩ :=
    Option.isSome_iff_exists.mp (List.getLast?_isSome.mpr (pieces_ne_nil separator after))
  rw [pieces_append_separator, List.getLast?_append, found, Option.some_or]

/-- A text of several pieces is its first piece, a separator and the others joined. -/
theorem eq_of_pieces_eq_cons (separator : Char) (text first : List Char)
    (others : List (List Char)) (several : others ≠ [])
    (cut : pieces separator text = first :: others) :
    text = first ++ separator :: joinPieces separator others := by
  have whole := joinPieces_pieces separator text
  rw [cut] at whole
  cases others with
  | nil => exact absurd rfl several
  | cons second rest => exact whole.symm

end Zonecast.Text
