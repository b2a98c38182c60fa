/-
Templates filled at one go, and placeholder by placeholder. At one go the template is read once from
left to right, each placeholder in it gives way to its value, and all else is copied, the values
included. Placeholder by placeholder the text that the earlier values have gone into is searched
for the next, so a value can bring a placeholder in, or complete one.

Both ways agree if that never happens, which can be counted: replacing the earlier placeholders
takes no occurrence of a later one away, so it has added none if there are as many as before. They
agree in particular if no value contains an opening brace and the template leaves none unclosed
before the next.
-/
import Mathlib.Data.List.Basic
import Zonecast.Proofs.Pieces
import Zonecast.Publish.Mail

namespace Zonecast.Text

/-! ### At one go -/

/-- Goes through a template of which so many characters still belong to a placeholder. -/
def fillFrom (substitutions : List (List Char × List Char)) : Nat → List Char → List Char
  | _, [] => []
  | skipped + 1, _ :: rest => fillFrom substitutions skipped rest
  | 0, c :: rest =>
    match substitutions.find? fun one => one.1.isPrefixOf (c :: rest) with
    | some one => one.2 ++ fillFrom substitutions (one.1.length - 1) rest
    | none => c :: fillFrom substitutions 0 rest

/-- How often a pattern occurs in a text. -/
def occurrencesIn (pattern : List Char) : List Char → Nat
  | [] => 0
  | c :: rest => occurrencesIn pattern rest + if pattern.isPrefixOf (c :: rest) then 1 else 0

/-- The template with every placeholder replaced by its value, in one pass. -/
def fill (substitutions : List (String × String)) (template : String) : String :=
  String.ofList (fillFrom (substitutions.map fun one => (one.1.toList, one.2.toList)) 0
    template.toList)

/-- How often a pattern occurs in a text. -/
def occurrences (pattern text : String) : Nat :=
  occurrencesIn pattern.toList text.toList

/-- No placeholder comes into being while those before it are replaced: filled with these, the
template has it as often as before. -/
def Settled (substitutions : List (String × String)) (template : String) : Prop :=
  ∀ (number : Nat) (one : String × String), substitutions[number]? = some one →
    occurrences one.1 (fill (substitutions.take number) template) = occurrences one.1 template

/-- A word without braces between braces. -/
def IsPlaceholder (pattern : List Char) : Prop :=
  ∃ word, pattern = '\x7b' :: (word ++ ['\x7d']) ∧ '\x7b' ∉ word ∧ '\x7d' ∉ word

section Filling

variable {substitutions : List (List Char × List Char)} {one : List Char × List Char}
  {pattern other value word rest text : List Char} {c : Char}

/-! ### Placeholders -/

/-- The closing brace opens nothing. -/
theorem not_mem_closed (unopened : '\x7b' ∉ word) : '\x7b' ∉ word ++ ['\x7d'] := by
  rw [List.mem_append, List.mem_singleton, not_or]
  exact ⟨unopened, by decide⟩

theorem IsPlaceholder.ne_nil (placeholder : IsPlaceholder pattern) : pattern ≠ [] := by
  obtain ⟨word, rfl, _⟩ := placeholder
  exact List.cons_ne_nil _ _

/-- A placeholder starts nowhere but at an opening brace. -/
theorem IsPlaceholder.isPrefixOf_cons (placeholder : IsPlaceholder pattern) (plain : c ≠ '\x7b') :
    pattern.isPrefixOf (c :: rest) = false := by
  obtain ⟨word, rfl, _⟩ := placeholder
  rw [List.isPrefixOf_cons_cons, beq_eq_false_iff_ne.mpr plain.symm, Bool.false_and]

/-- At an opening brace a placeholder starts just if its word stands before the next closing one. -/
theorem IsPlaceholder.isPrefixOf_word (placeholder : IsPlaceholder pattern)
    (unclosed : '\x7d' ∉ word) (rest : List Char) :
    pattern.isPrefixOf ('\x7b' :: (word ++ '\x7d' :: rest)) = true ↔
      pattern = '\x7b' :: (word ++ ['\x7d']) := by
  obtain ⟨inner, rfl, _, closed⟩ := placeholder
  rw [List.isPrefixOf_iff_prefix]
  constructor
  · rintro ⟨tail, same⟩
    rw [List.cons_append, List.append_assoc, List.singleton_append, List.cons.injEq] at same
    have words := congrArg (pieces '\x7d') same.2
    rw [pieces_append _ _ _ closed, pieces_append _ _ _ unclosed] at words
    rw [(List.cons.inj words).1]
  · rintro same
    rw [same]
    exact ⟨rest, by rw [List.cons_append, List.append_assoc, List.singleton_append]⟩

/-- Where one placeholder stands, no other starts. -/
theorem IsPlaceholder.isPrefixOf_append (placeholder : IsPlaceholder pattern)
    (stands : IsPlaceholder other) (rest : List Char) :
    pattern.isPrefixOf (other ++ rest) = true ↔ pattern = other := by
  obtain ⟨word, rfl, _, unclosed⟩ := stands
  rw [← placeholder.isPrefixOf_word unclosed rest, List.cons_append, List.append_assoc,
    List.singleton_append]

/-! ### Occurrences -/

/-- No placeholder starts in a text without opening braces. -/
theorem IsPlaceholder.occurrencesIn_append (placeholder : IsPlaceholder pattern)
    (plain : '\x7b' ∉ word) :
    occurrencesIn pattern (word ++ rest) = occurrencesIn pattern rest := by
  induction word with
  | nil => rfl
  | cons first others inductionHypothesis =>
    have different : first ≠ '\x7b' := fun same => plain (same ▸ List.mem_cons_self)
    rw [List.cons_append, occurrencesIn, placeholder.isPrefixOf_cons different,
      if_neg Bool.false_ne_true, Nat.add_zero]
    exact inductionHypothesis fun member => plain (List.mem_cons_of_mem _ member)

/-- A placeholder occurs once where it stands itself, and not where another stands. -/
theorem IsPlaceholder.occurrencesIn_placeholder (placeholder : IsPlaceholder pattern)
    (stands : IsPlaceholder other) : occurrencesIn pattern (other ++ rest) =
      occurrencesIn pattern rest + if pattern = other then 1 else 0 := by
  have starts := placeholder.isPrefixOf_append stands rest
  obtain ⟨word, rfl, unopened, _⟩ := stands
  rw [List.cons_append, occurrencesIn, ← List.cons_append,
    placeholder.occurrencesIn_append (not_mem_closed unopened), if_congr starts rfl rfl]

/-- What stands before a text takes no occurrence away. -/
theorem occurrencesIn_le_append (pattern value rest : List Char) :
    occurrencesIn pattern rest ≤ occurrencesIn pattern (value ++ rest) := by
  induction value with
  | nil => exact Nat.le_refl _
  | cons first others inductionHypothesis =>
    rw [List.cons_append, occurrencesIn]
    exact Nat.le_add_right_of_le inductionHypothesis

/-! ### Filling -/

theorem fillFrom_append :
    fillFrom substitutions word.length (word ++ rest) = fillFrom substitutions 0 rest := by
  induction word with
  | nil => rfl
  | cons first others inductionHypothesis => exact inductionHypothesis

theorem fillFrom_found (placeholder : IsPlaceholder one.1)
    (found : substitutions.find? (fun one => one.1.isPrefixOf (pattern ++ rest)) = some one)
    (same : one.1 = pattern) :
    fillFrom substitutions 0 (pattern ++ rest) = one.2 ++ fillFrom substitutions 0 rest := by
  obtain ⟨word, spelled, _⟩ := placeholder
  rw [← same, spelled, List.cons_append] at found ⊢
  rw [fillFrom, found]
  dsimp only
  rw [spelled, List.length_cons, Nat.add_sub_cancel, fillFrom_append]

theorem fillFrom_nil (text : List Char) : fillFrom [] 0 text = text := by
  induction text with
  | nil => rfl
  | cons first rest inductionHypothesis => exact congrArg (first :: ·) inductionHypothesis

theorem fillFrom_plain
    (plain : substitutions.find? (fun one => one.1.isPrefixOf (c :: rest)) = none) :
    fillFrom substitutions 0 (c :: rest) = c :: fillFrom substitutions 0 rest := by
  rw [fillFrom, plain]

/-- Text without opening braces is copied. -/
theorem fillFrom_word (placeholders : ∀ one ∈ substitutions, IsPlaceholder one.1)
    (plain : '\x7b' ∉ word) (rest : List Char) :
    fillFrom substitutions 0 (word ++ rest) = word ++ fillFrom substitutions 0 rest := by
  induction word with
  | nil => rfl
  | cons first others inductionHypothesis =>
    have different : first ≠ '\x7b' := fun same => plain (same ▸ List.mem_cons_self)
    have none : substitutions.find? (fun one => one.1.isPrefixOf (first :: (others ++ rest))) =
        none := by
      rw [List.find?_eq_none]
      intro one member
      rw [(placeholders one member).isPrefixOf_cons different]
      exact Bool.false_ne_true
    rw [List.cons_append, fillFrom_plain none, List.cons_append,
      inductionHypothesis fun member => plain (List.mem_cons_of_mem _ member)]

theorem find?_eq_none_of_other (placeholders : ∀ one ∈ substitutions, IsPlaceholder one.1)
    (placeholder : IsPlaceholder pattern) (apart : ∀ one ∈ substitutions, one.1 ≠ pattern)
    (rest : List Char) :
    substitutions.find? (fun one => one.1.isPrefixOf (pattern ++ rest)) = none := by
  rw [List.find?_eq_none]
  intro one member starts
  exact apart one member (((placeholders one member).isPrefixOf_append placeholder _).mp starts)

/-- Where another placeholder stands, it is copied. -/
theorem fillFrom_other (placeholders : ∀ one ∈ substitutions, IsPlaceholder one.1)
    (placeholder : IsPlaceholder pattern) (apart : ∀ one ∈ substitutions, one.1 ≠ pattern) :
    fillFrom substitutions 0 (pattern ++ rest) =
      pattern ++ fillFrom substitutions 0 rest := by
  have none := find?_eq_none_of_other placeholders placeholder apart rest
  obtain ⟨word, rfl, unopened, _⟩ := placeholder
  rw [List.cons_append] at none ⊢
  rw [fillFrom_plain none, fillFrom_word placeholders (not_mem_closed unopened), List.cons_append]

/-- Replacing one placeholder is filling it. -/
theorem replaceFrom_eq_fillFrom (skipped : Nat) :
    replaceFrom pattern value skipped text = fillFrom [(pattern, value)] skipped text := by
  induction text generalizing skipped with
  | nil =>
    rw [replaceFrom, fillFrom]
  | cons first rest inductionHypothesis =>
    cases skipped with
    | succ skipped => exact inductionHypothesis skipped
    | zero =>
      rw [replaceFrom, fillFrom, List.find?_singleton]
      by_cases starts : pattern.isPrefixOf (first :: rest) = true
      · rw [if_pos starts, if_pos starts]
        dsimp only
        rw [inductionHypothesis]
      · rw [if_neg starts, if_neg starts]
        dsimp only
        rw [inductionHypothesis]

/-- A value in which the placeholder does not start is passed over. -/
theorem fillFrom_append_of_occurrencesIn (value : List Char)
    (none : occurrencesIn pattern (value ++ rest) = occurrencesIn pattern rest)
    (replacement : List Char) :
    fillFrom [(pattern, replacement)] 0 (value ++ rest) =
      value ++ fillFrom [(pattern, replacement)] 0 rest := by
  induction value with
  | nil => rfl
  | cons first others inductionHypothesis =>
    rw [List.cons_append, occurrencesIn] at none
    have least := occurrencesIn_le_append pattern others rest
    by_cases starts : pattern.isPrefixOf (first :: (others ++ rest)) = true
    · rw [if_pos starts] at none
      omega
    · rw [if_neg starts] at none
      have plain : [(pattern, replacement)].find?
          (fun one => one.1.isPrefixOf (first :: (others ++ rest))) = .none := by
        rw [List.find?_singleton, if_neg starts]
      rw [List.cons_append, fillFrom_plain plain, inductionHypothesis none, List.cons_append]

/-! ### Placeholder by placeholder -/

/-- How a template is read: as placeholders that are filled, another one, and characters at which
none of them starts. -/
inductive Spelled (substitutions : List (List Char × List Char)) (pattern : List Char) :
    List Char → Prop
  | nil : Spelled substitutions pattern []
  | filled (one : List Char × List Char) (rest : List Char) (member : one ∈ substitutions)
    (found : substitutions.find? (fun other => other.1.isPrefixOf (one.1 ++ rest)) = some one)
    (spelled : Spelled substitutions pattern rest) : Spelled substitutions pattern (one.1 ++ rest)
  | other (rest : List Char) (spelled : Spelled substitutions pattern rest) :
    Spelled substitutions pattern (pattern ++ rest)
  | plain (c : Char) (rest : List Char)
    (none : substitutions.find? (fun one => one.1.isPrefixOf (c :: rest)) = none)
    (unmatched : pattern.isPrefixOf (c :: rest) = false)
    (spelled : Spelled substitutions pattern rest) : Spelled substitutions pattern (c :: rest)

theorem spelled (placeholders : ∀ one ∈ substitutions, IsPlaceholder one.1)
    (placeholder : IsPlaceholder pattern) (text : List Char) :
    Spelled substitutions pattern text := by
  -- What is left after a placeholder is shorter, as no placeholder is empty.
  induction size : text.length using Nat.strongRecOn generalizing text with
  | _ length inductionHypothesis =>
    subst size
    cases text with
    | nil => exact .nil
    | cons first others =>
      cases found : substitutions.find? (fun one => one.1.isPrefixOf (first :: others)) with
      | some one =>
        have starts := List.find?_some (p := fun one : List Char × List Char =>
          one.1.isPrefixOf (first :: others)) found
        have member := List.mem_of_find?_eq_some found
        obtain ⟨rest, whole⟩ := List.isPrefixOf_iff_prefix.mp starts
        have some := List.length_pos_iff.mpr (placeholders one member).ne_nil
        rw [← whole] at found inductionHypothesis ⊢
        refine .filled one rest member found (inductionHypothesis _ ?_ rest rfl)
        rw [List.length_append]
        omega
      | none =>
        by_cases starts : pattern.isPrefixOf (first :: others) = true
        · obtain ⟨rest, whole⟩ := List.isPrefixOf_iff_prefix.mp starts
          have some := List.length_pos_iff.mpr placeholder.ne_nil
          rw [← whole] at inductionHypothesis ⊢
          refine .other rest (inductionHypothesis _ ?_ rest rfl)
          rw [List.length_append]
          omega
        · exact .plain first others found (Bool.not_eq_true _ ▸ starts)
            (inductionHypothesis _ (Nat.lt_succ_self _) others rfl)

section Step

variable (placeholders : ∀ one ∈ substitutions, IsPlaceholder one.1)
  (placeholder : IsPlaceholder pattern) (apart : ∀ one ∈ substitutions, one.1 ≠ pattern)
include placeholders placeholder apart

/-- Filling other placeholders takes no occurrence away. If it adds none, the placeholder might
as well have been filled with them. -/
theorem fillFrom_fillFrom (value : List Char) (spelled : Spelled substitutions pattern text) :
    occurrencesIn pattern text ≤ occurrencesIn pattern (fillFrom substitutions 0 text) ∧
      (occurrencesIn pattern (fillFrom substitutions 0 text) = occurrencesIn pattern text →
        fillFrom [(pattern, value)] 0 (fillFrom substitutions 0 text) =
          fillFrom (substitutions ++ [(pattern, value)]) 0 text) := by
  induction spelled with
  | nil => exact ⟨Nat.le_refl _, fun _ => rfl⟩
  | filled one rest member found spelled inductionHypothesis =>
    obtain ⟨least, equal⟩ := inductionHypothesis
    have stands := placeholders one member
    have more := occurrencesIn_le_append pattern one.2 (fillFrom substitutions 0 rest)
    have both : (substitutions ++ [(pattern, value)]).find?
        (fun other => other.1.isPrefixOf (one.1 ++ rest)) = some one := by
      rw [List.find?_append, found, Option.some_or]
    rw [fillFrom_found stands found rfl, fillFrom_found stands both rfl,
      placeholder.occurrencesIn_placeholder stands, if_neg (apart one member).symm, Nat.add_zero]
    refine ⟨Nat.le_trans least more, fun same => ?_⟩
    have inside : occurrencesIn pattern (fillFrom substitutions 0 rest) =
        occurrencesIn pattern rest := by omega
    rw [fillFrom_append_of_occurrencesIn _ (same.trans inside.symm), equal inside]
  | other rest spelled inductionHypothesis =>
    obtain ⟨least, equal⟩ := inductionHypothesis
    have found : [(pattern, value)].find? (fun other => other.1.isPrefixOf
        (pattern ++ fillFrom substitutions 0 rest)) = some (pattern, value) := by
      rw [List.find?_singleton, if_pos ((placeholder.isPrefixOf_append placeholder _).mpr rfl)]
    have both : (substitutions ++ [(pattern, value)]).find?
        (fun other => other.1.isPrefixOf (pattern ++ rest)) = some (pattern, value) := by
      rw [List.find?_append, find?_eq_none_of_other placeholders placeholder apart rest,
        Option.none_or, List.find?_singleton,
        if_pos ((placeholder.isPrefixOf_append placeholder _).mpr rfl)]
    rw [fillFrom_other placeholders placeholder apart, fillFrom_found placeholder found rfl,
      fillFrom_found placeholder both rfl, placeholder.occurrencesIn_placeholder placeholder,
      placeholder.occurrencesIn_placeholder placeholder]
    refine ⟨Nat.add_le_add_right least _, fun same => ?_⟩
    rw [equal (Nat.add_right_cancel same)]
  | plain c rest none unmatched spelled inductionHypothesis =>
    obtain ⟨least, equal⟩ := inductionHypothesis
    have both : (substitutions ++ [(pattern, value)]).find?
        (fun other => other.1.isPrefixOf (c :: rest)) = .none := by
      rw [List.find?_append, none, Option.none_or, List.find?_singleton, unmatched,
        if_neg Bool.false_ne_true]
    have more := occurrencesIn_le_append pattern [c] (fillFrom substitutions 0 rest)
    rw [List.singleton_append] at more
    rw [fillFrom_plain none, fillFrom_plain both, occurrencesIn.eq_2 pattern c rest, unmatched,
      if_neg Bool.false_ne_true, Nat.add_zero]
    refine ⟨Nat.le_trans least more, fun same => ?_⟩
    have inside : occurrencesIn pattern (fillFrom substitutions 0 rest) =
        occurrencesIn pattern rest := by omega
    have passed := fillFrom_append_of_occurrencesIn [c] (same.trans inside.symm) value
    rw [List.singleton_append, List.singleton_append] at passed
    rw [passed, equal inside]

end Step

/-- A brace. -/
def isBrace (c : Char) : Bool :=
  c == '\x7b' || c == '\x7d'

/-- No opening brace is followed by another one before it is closed. -/
def isTidy : List Char → Bool
  | [] => true
  | c :: rest => (c != '\x7b' || rest.find? isBrace != some '\x7b') && isTidy rest

theorem isTidy_of_append (word : List Char) (tidy : isTidy (word ++ rest) = true) :
    isTidy rest = true := by
  induction word with
  | nil => exact tidy
  | cons first others inductionHypothesis =>
    rw [List.cons_append, isTidy, Bool.and_eq_true] at tidy
    exact inductionHypothesis tidy.2

/-- Where no placeholder starts in a tidy template, none starts once others are filled. -/
theorem isPrefixOf_fillFrom (placeholders : ∀ one ∈ substitutions, IsPlaceholder one.1)
    (placeholder : IsPlaceholder pattern) (tidy : isTidy (c :: rest) = true)
    (unmatched : pattern.isPrefixOf (c :: rest) = false) :
    pattern.isPrefixOf (c :: fillFrom substitutions 0 rest) = false := by
  by_cases opening : c = '\x7b'
  · subst opening
    rw [isTidy, Bool.and_eq_true, bne_self_eq_false, Bool.false_or, bne_iff_ne] at tidy
    cases found : rest.find? isBrace with
    | none =>
      -- Nothing is filled in a text without braces.
      have unopened : '\x7b' ∉ rest := fun member =>
        List.find?_eq_none.mp found _ member rfl
      have whole := fillFrom_word placeholders unopened []
      rw [List.append_nil, fillFrom, List.append_nil] at whole
      rw [whole, unmatched]
    | some brace =>
      have closing : brace = '\x7d' := by
        have braces : isBrace brace = true := List.find?_some found
        rw [isBrace, Bool.or_eq_true] at braces
        rcases braces with opens | closes
        · exact absurd (found.trans (congrArg some (eq_of_beq opens))) tidy.1
        · exact eq_of_beq closes
      subst closing
      obtain ⟨_, word, others, rfl, before⟩ := List.find?_eq_some_iff_append.mp found
      have plain (brace : Char) (braces : isBrace brace = true) : brace ∉ word := by
        intro member
        have none := before brace member
        rw [braces] at none
        cases none
      have unclosed := plain '\x7d' rfl
      have copied := fillFrom_word placeholders (not_mem_closed (plain '\x7b' rfl)) others
      rw [List.append_assoc, List.append_assoc, List.singleton_append, List.singleton_append]
        at copied
      rw [copied, ← unmatched, Bool.eq_iff_iff, placeholder.isPrefixOf_word unclosed,
        placeholder.isPrefixOf_word unclosed]
  · exact placeholder.isPrefixOf_cons opening

/-- Values without opening braces add no occurrence of a placeholder to a tidy template. -/
theorem occurrencesIn_fillFrom (placeholders : ∀ one ∈ substitutions, IsPlaceholder one.1)
    (placeholder : IsPlaceholder pattern) (apart : ∀ one ∈ substitutions, one.1 ≠ pattern)
    (plain : ∀ one ∈ substitutions, '\x7b' ∉ one.2) (tidy : isTidy text = true) :
    occurrencesIn pattern (fillFrom substitutions 0 text) = occurrencesIn pattern text := by
  induction spelled placeholders placeholder text with
  | nil => rfl
  | filled one rest member found spelled inductionHypothesis =>
    have stands := placeholders one member
    rw [fillFrom_found stands found rfl, placeholder.occurrencesIn_append (plain one member),
      placeholder.occurrencesIn_placeholder stands, if_neg (apart one member).symm,
      inductionHypothesis (isTidy_of_append _ tidy), Nat.add_zero]
  | other rest spelled inductionHypothesis =>
    rw [fillFrom_other placeholders placeholder apart,
      placeholder.occurrencesIn_placeholder placeholder,
      placeholder.occurrencesIn_placeholder placeholder,
      inductionHypothesis (isTidy_of_append _ tidy)]
  | plain c rest none unmatched spelled inductionHypothesis =>
    have still := isPrefixOf_fillFrom placeholders placeholder tidy unmatched
    have tidyRest : isTidy rest = true := isTidy_of_append [c] tidy
    rw [fillFrom_plain none, occurrencesIn, occurrencesIn, unmatched, still,
      inductionHypothesis tidyRest]

/-- Filling one placeholder after the other is filling them at one go, if no placeholder comes
into being while those before it are filled. -/
theorem foldl_replaceFrom (text : List Char) (earlier later : List (List Char × List Char))
    (placeholders : ∀ one ∈ earlier ++ later, IsPlaceholder one.1)
    (apart : ((earlier ++ later).map Prod.fst).Nodup)
    (settled : ∀ before one after, earlier ++ later = before ++ one :: after →
      occurrencesIn one.1 (fillFrom before 0 text) = occurrencesIn one.1 text) :
    later.foldl (fun filled one => replaceFrom one.1 one.2 0 filled) (fillFrom earlier 0 text) =
      fillFrom (earlier ++ later) 0 text := by
  induction later generalizing earlier with
  | nil => rw [List.append_nil, List.foldl_nil]
  | cons one rest inductionHypothesis =>
    have placeholder := placeholders one (List.mem_append_right _ List.mem_cons_self)
    have others : ∀ other ∈ earlier, IsPlaceholder other.1 :=
      fun other member => placeholders other (List.mem_append_left _ member)
    have different : ∀ other ∈ earlier, other.1 ≠ one.1 := by
      rw [List.map_append, List.map_cons, List.nodup_append] at apart
      exact fun other member =>
        apart.2.2 other.1 (List.mem_map_of_mem member) one.1 List.mem_cons_self
    have next := (fillFrom_fillFrom others placeholder different one.2
      (spelled others placeholder text)).2 (settled earlier one rest rfl)
    have split : earlier ++ one :: rest = (earlier ++ [one]) ++ rest := by
      rw [List.append_assoc, List.singleton_append]
    rw [split] at placeholders apart settled ⊢
    rw [List.foldl_cons, replaceFrom_eq_fillFrom, next]
    exact inductionHypothesis (earlier ++ [one]) placeholders apart settled

end Filling

section Texts

variable {substitutions : List (String × String)} {template : String}

theorem toList_foldl_replace : (substitutions.foldl
    (fun filled one => replace one.1 one.2 filled) template).toList =
      (substitutions.map fun one => (one.1.toList, one.2.toList)).foldl
        (fun filled one => replaceFrom one.1 one.2 0 filled) template.toList := by
  induction substitutions generalizing template with
  | nil => rfl
  | cons one rest inductionHypothesis =>
    rw [List.foldl_cons, inductionHypothesis, List.map_cons, List.foldl_cons, replace,
      String.toList_ofList]

/-- Replacing the placeholders of a text one after the other is filling it at one go, if none of
them comes into being on the way. -/
theorem foldl_replace (placeholders : ∀ one ∈ substitutions, IsPlaceholder one.1.toList)
    (apart : (substitutions.map fun one => one.1.toList).Nodup)
    (settled : Settled substitutions template) :
    substitutions.foldl (fun filled one => replace one.1 one.2 filled) template =
      fill substitutions template := by
  rw [← String.toList_inj, toList_foldl_replace, fill, String.toList_ofList]
  have filled := foldl_replaceFrom template.toList []
    (substitutions.map fun one => (one.1.toList, one.2.toList))
  rw [List.nil_append, fillFrom_nil] at filled
  refine filled ?_ ?_ ?_
  · intro one member
    obtain ⟨texts, there, rfl⟩ := List.mem_map.mp member
    exact placeholders texts there
  · rw [List.map_map]
    exact apart
  · intro before one after split
    obtain ⟨earlier, others, rfl, rfl, tail⟩ := List.map_eq_append_iff.mp split
    obtain ⟨texts, later, rfl, rfl, rfl⟩ := List.map_eq_cons_iff.mp tail
    have count := settled earlier.length texts
      (by rw [List.getElem?_append_right (Nat.le_refl _), Nat.sub_self, List.getElem?_cons_zero])
    rw [List.take_left, occurrences, occurrences, fill, String.toList_ofList] at count
    exact count

/-- No placeholder comes into being in a tidy template if no value but the last contains an
opening brace. -/
theorem settled_of_isTidy (placeholders : ∀ one ∈ substitutions, IsPlaceholder one.1.toList)
    (apart : (substitutions.map fun one => one.1.toList).Nodup)
    (plain : ∀ one ∈ substitutions.dropLast, '\x7b' ∉ one.2.toList)
    (tidy : isTidy template.toList = true) : Settled substitutions template := by
  intro number one there
  obtain ⟨fits, rfl⟩ := List.getElem?_eq_some_iff.mp there
  have split : substitutions = substitutions.take number ++
      substitutions[number] :: substitutions.drop (number + 1) := by
    rw [← List.drop_eq_getElem_cons fits, List.take_append_drop]
  have earlier : substitutions.take number ⊆ substitutions.dropLast := by
    rw [List.dropLast_eq_take]
    exact (List.take_sublist_take_left (by omega)).subset
  rw [split, List.map_append, List.map_cons, List.nodup_append] at apart
  rw [occurrences, occurrences, fill, String.toList_ofList]
  refine occurrencesIn_fillFrom ?_ (placeholders _ (List.getElem_mem fits)) ?_ ?_ tidy
  · intro one member
    obtain ⟨texts, there, rfl⟩ := List.mem_map.mp member
    exact placeholders texts (List.mem_of_mem_take there)
  · intro one member
    obtain ⟨texts, there, rfl⟩ := List.mem_map.mp member
    exact apart.2.2 _ (List.mem_map_of_mem there) _ List.mem_cons_self
  · intro one member
    obtain ⟨texts, there, rfl⟩ := List.mem_map.mp member
    exact plain texts (earlier there)

end Texts

end Zonecast.Text

namespace Zonecast.Publish.Mail

open Text

section

variable (settings : MailSettings) (registrar name : String) (kind : ItemKind)

theorem isPlaceholder_substitutions :
    ∀ one ∈ substitutions settings registrar name kind, IsPlaceholder one.1.toList := by
  intro one member
  simp only [substitutions, List.mem_cons, List.not_mem_nil, or_false] at member
  rcases member with rfl | rfl | rfl | rfl | rfl
  · exact ⟨"registrar".toList, (by decide : "\x7bregistrar\x7d".toList = _), by decide, by decide⟩
  · exact ⟨"name".toList, (by decide : "\x7bname\x7d".toList = _), by decide, by decide⟩
  · exact ⟨"kind".toList, (by decide : "\x7bkind\x7d".toList = _), by decide, by decide⟩
  · exact ⟨"support_email".toList, (by decide : "\x7bsupport_email\x7d".toList = _), by decide,
      by decide⟩
  · exact ⟨"registry_name".toList, (by decide : "\x7bregistry_name\x7d".toList = _), by decide,
      by decide⟩

theorem nodup_substitutions :
    ((substitutions settings registrar name kind).map fun one => one.1.toList).Nodup := by
  simp only [substitutions, List.map_cons, List.map_nil]
  decide

/-- The body is the template filled at one go, unless a placeholder comes into being while those
before it are replaced. -/
theorem renderBody_eq_fill
    (settled : Settled (substitutions settings registrar name kind) settings.bodyTemplate) :
    renderBody settings registrar name kind =
      fill (substitutions settings registrar name kind) settings.bodyTemplate :=
  foldl_replace (isPlaceholder_substitutions settings registrar name kind)
    (nodup_substitutions settings registrar name kind) settled

/-- None does if the template is tidy and none of the registrar, the item and the support address
contains an opening brace. -/
theorem settled_of_plain (registrarPlain : '\x7b' ∉ registrar.toList)
    (namePlain : '\x7b' ∉ name.toList) (supportPlain : '\x7b' ∉ settings.supportAddress.toList)
    (tidy : isTidy settings.bodyTemplate.toList = true) :
    Settled (substitutions settings registrar name kind) settings.bodyTemplate := by
  refine settled_of_isTidy (isPlaceholder_substitutions settings registrar name kind)
    (nodup_substitutions settings registrar name kind) ?_ tidy
  have word : '\x7b' ∉ kind.word.toList := by cases kind <;> decide
  simp only [substitutions, List.dropLast, List.forall_mem_cons]
  exact ⟨registrarPlain, namePlain, word, supportPlain, nofun⟩

end

/-- A short template with every placeholder. -/
def exampleSettings : MailSettings where
  subject := "DNS update failed"
  bodyTemplate := "\x7bregistrar\x7d: \x7bkind\x7d \x7bname\x7d failed\n" ++
    "\x7bsupport_email\x7d \x7bregistry_name\x7d"
  registryName := "\x7bname\x7d"
  supportAddress := "a@b.c"
  operationsAddress := "ops@registry.test"

/-- The registry's name comes last, so a placeholder in it stays. -/
theorem renderBody_exampleSettings :
    renderBody exampleSettings "R" "a.test" .domain =
        fill (substitutions exampleSettings "R" "a.test" .domain) exampleSettings.bodyTemplate ∧
      renderBody exampleSettings "R" "a.test" .domain =
        "R: domain a.test failed\na@b.c \x7bname\x7d" := by
  have filled := renderBody_eq_fill exampleSettings "R" "a.test" .domain
    (settled_of_plain _ _ _ _ (by decide) (by decide) (by decide) (by decide +kernel))
  exact ⟨filled, filled.trans (by decide +kernel)⟩

/-- A registrar that is named like a later placeholder is not named in the body. -/
theorem renderBody_bracedRegistrar :
    renderBody exampleSettings "\x7bkind\x7d" "a.test" .domain =
        "domain: domain a.test failed\na@b.c \x7bname\x7d" ∧
      fill (substitutions exampleSettings "\x7bkind\x7d" "a.test" .domain)
          exampleSettings.bodyTemplate =
        "\x7bkind\x7d: domain a.test failed\na@b.c \x7bname\x7d" := by
  decide +kernel

end Zonecast.Publish.Mail
