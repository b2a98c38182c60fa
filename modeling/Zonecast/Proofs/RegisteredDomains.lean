/-
Which registered domain a name belongs to. A name directly under a TLD has the TLD's labels and
one more, and it is its own registered domain. Everything strictly under such a name belongs to it
as well, so a name has one registered domain at most among those directly under the TLD, however
it is reached.

The registered domain is cut out of a host, and what is cut out may start with a blank that is
trimmed when it is brought into canonical form. It lies directly under the TLD all the same, as
long as the TLD does not end in a blank.
-/
import Mathlib.Data.List.Basic
import Zonecast.Proofs.Names
import Zonecast.Proofs.Pieces

namespace Zonecast.Name

open Zonecast.Text

/-! ### Spellings -/

@[simp] theorem bareChars_toList_canonical (name : String) :
    bareChars (canonical name).toList = bareChars name.toList := by
  rw [toList_canonical, bareChars_bareChars_dot]

theorem bareChars_eq_of_bare_eq {first second : String} (same : bare first = bare second) :
    bareChars first.toList = bareChars second.toList :=
  String.ofList_injective same

/-! ### Bare forms that stay -/

theorem mem_bareChars (name : List Char) (c : Char) (member : c ∈ bareChars name) :
    ∃ original ∈ name, lowerChar original = c := by
  rw [bareChars, List.mem_map] at member
  obtain ⟨original, inBody, same⟩ := member
  refine ⟨original, ?_, same⟩
  have inTrimmed : original ∈ trimChars name := (dropEnd_isPrefix _ _).subset inBody
  have inRest : original ∈ name.dropWhile isBlank := (dropEnd_isPrefix _ _).subset inTrimmed
  exact (List.dropWhile_suffix _).subset inRest

/-- The bare form of a text without blanks ends in none. -/
theorem isBlank_getLast?_bareChars (name : List Char) (blankFree : ∀ c ∈ name, isBlank c = false)
    (c : Char) (last : (bareChars name).getLast? = some c) : isBlank c = false := by
  obtain ⟨original, member, rfl⟩ := mem_bareChars name c (List.mem_of_getLast? last)
  rw [isBlank_lowerChar]
  exact blankFree original member

/-- A text that starts and ends with no blank and ends in no dot only has its capitals made
small. -/
theorem bareChars_of_edges (name : List Char)
    (first : ∀ c, name.head? = some c → isBlank c = false)
    (last : ∀ c, name.getLast? = some c → isBlank c = false ∧ (c == '.') = false) :
    bareChars name = name.map lowerChar := by
  have trimmed : trimChars name = name :=
    trimChars_of_edges name first fun c final => (last c final).1
  have undotted : dropEnd (· == '.') (trimChars name) = name := by
    rw [trimmed]
    exact dropEnd_of_getLast? _ _ fun c final => (last c final).2
  rw [bareChars, undotted]

/-- A bare form that does not end in a blank stays when it is taken again. -/
theorem bareChars_bareChars (name : List Char)
    (clean : ∀ c, (bareChars name).getLast? = some c → isBlank c = false) :
    bareChars (bareChars name) = bareChars name := by
  have edges := bareChars_of_edges (bareChars name) (head?_bareChars name) fun c last =>
    ⟨clean c last, getLast?_bareChars name c last⟩
  rw [edges, map_lowerChar_bareChars]

/-- What ends in a dot and a filled bare form ends as the bare form does. -/
theorem getLast?_append_bareChars (before name : List Char) (filled : bareChars name ≠ []) :
    (before ++ '.' :: bareChars name).getLast? = (bareChars name).getLast? := by
  obtain ⟨first, rest, cut⟩ := List.exists_cons_of_ne_nil filled
  rw [cut, List.getLast?_append_cons, List.getLast?_cons_cons]

/-! ### Under a parent -/

theorem aboveParent?_eq_some_iff (name parent front : List Char) :
    aboveParent? name parent = some front ↔
      parent ≠ [] ∧ ∃ before, front = before ++ ['.'] ∧ name = before ++ '.' :: parent := by
  have cut : ∀ before : List Char,
      (before ++ parent).take ((before ++ parent).length - parent.length) = before := by
    intro before
    rw [List.length_append, Nat.add_sub_cancel, List.take_left]
  unfold aboveParent?
  dsimp only
  constructor
  · intro found
    split at found
    · rename_i holds
      simp only [Bool.and_eq_true, Bool.not_eq_true', List.isEmpty_eq_false_iff,
        List.isSuffixOf_iff_suffix, beq_iff_eq] at holds
      obtain ⟨⟨filled, before, whole⟩, dotted⟩ := holds
      rw [← whole, cut] at found dotted
      obtain rfl : before = front := Option.some.inj found
      obtain ⟨above, rfl⟩ := List.getLast?_eq_some_iff.mp dotted
      exact ⟨filled, above, rfl, by rw [← whole, List.append_assoc, List.singleton_append]⟩
    · cases found
  · rintro ⟨filled, above, rfl, rfl⟩
    have whole : above ++ '.' :: parent = (above ++ ['.']) ++ parent := by
      rw [List.append_assoc, List.singleton_append]
    rw [whole, cut, if_pos]
    simp only [Bool.and_eq_true, Bool.not_eq_true', List.isEmpty_eq_false_iff,
      List.isSuffixOf_iff_suffix, beq_iff_eq]
    exact ⟨⟨filled, List.suffix_append _ _⟩, List.getLast?_concat⟩

theorem isStrictlyUnder_iff (name parent : String) :
    isStrictlyUnder name parent = true ↔ bareChars parent.toList ≠ [] ∧
      ∃ before, bareChars name.toList = before ++ '.' :: bareChars parent.toList := by
  rw [isStrictlyUnder, Option.isSome_iff_exists]
  simp only [aboveParent?_eq_some_iff]
  constructor
  · rintro ⟨_, filled, before, rfl, whole⟩
    exact ⟨filled, before, whole⟩
  · rintro ⟨filled, before, whole⟩
    exact ⟨_, filled, before, rfl, whole⟩

/-- Whether a name lies under another does not depend on how it is written. -/
theorem isStrictlyUnder_congr {first second : String} (parent : String)
    (same : bare first = bare second) :
    isStrictlyUnder first parent = isStrictlyUnder second parent := by
  rw [isStrictlyUnder, isStrictlyUnder, bareChars_eq_of_bare_eq same]

@[simp] theorem isStrictlyUnder_canonical (name parent : String) :
    isStrictlyUnder (canonical name) parent = isStrictlyUnder name parent :=
  isStrictlyUnder_congr parent (bare_canonical name)

theorem isStrictlyUnder_trans {name middle parent : String}
    (below : isStrictlyUnder name middle = true) (above : isStrictlyUnder middle parent = true) :
    isStrictlyUnder name parent = true := by
  obtain ⟨_, front, whole⟩ := (isStrictlyUnder_iff name middle).mp below
  obtain ⟨filled, before, cut⟩ := (isStrictlyUnder_iff middle parent).mp above
  refine (isStrictlyUnder_iff name parent).mpr ⟨filled, front ++ '.' :: before, ?_⟩
  rw [whole, cut, List.append_assoc, List.cons_append]

/-- A name under another is another. -/
theorem canonical_ne_of_isStrictlyUnder {name parent : String}
    (below : isStrictlyUnder name parent = true) : canonical name ≠ canonical parent := by
  obtain ⟨_, before, whole⟩ := (isStrictlyUnder_iff name parent).mp below
  intro same
  have lengths := congrArg (fun name => (bareChars name.toList).length) same
  simp only [bareChars_toList_canonical, whole, List.length_append, List.length_cons] at lengths
  omega

/-- The registered domain is the TLD and the last label of what stands above it. -/
theorem registeredDomain?_eq_some_iff (host tld domain : String) :
    registeredDomain? host tld = some domain ↔ bareChars tld.toList ≠ [] ∧
      ∃ before label, bareChars host.toList = before ++ '.' :: bareChars tld.toList ∧
        (pieces '.' before).getLast? = some label ∧
        domain = String.ofList (label ++ '.' :: bareChars tld.toList) := by
  rw [registeredDomain?, Option.map_eq_some_iff]
  simp only [aboveParent?_eq_some_iff]
  constructor
  · rintro ⟨_, ⟨filled, before, rfl, whole⟩, rfl⟩
    obtain ⟨label, last⟩ := List.getLast?_isSome.mpr (pieces_ne_nil '.' before) |>
      Option.isSome_iff_exists.mp
    refine ⟨filled, before, label, whole, last, ?_⟩
    rw [List.dropLast_concat, last, Option.getD_some]
  · rintro ⟨filled, before, label, whole, last, rfl⟩
    refine ⟨before ++ ['.'], ⟨filled, before, rfl, whole⟩, ?_⟩
    rw [List.dropLast_concat, last, Option.getD_some]

/-- The registered domain does not depend on how the host is written. -/
theorem registeredDomain?_congr {first second : String} (tld : String)
    (same : bare first = bare second) :
    registeredDomain? first tld = registeredDomain? second tld := by
  rw [registeredDomain?, registeredDomain?, bareChars_eq_of_bare_eq same]

/-! ### Directly under a TLD -/

/-- Whether a name has one label more than the TLD, before the TLD's own. -/
def isDirectlyUnder (name tld : String) : Bool :=
  (labels name).tail == labels tld

theorem isDirectlyUnder_iff (name tld : String) :
    isDirectlyUnder name tld = true ↔
      ∃ label, '.' ∉ label ∧ bareChars name.toList = label ++ '.' :: bareChars tld.toList := by
  rw [isDirectlyUnder, beq_iff_eq, labels, labels]
  constructor
  · intro same
    cases cut : pieces '.' (bareChars name.toList) with
    | nil => exact absurd cut (pieces_ne_nil _ _)
    | cons first others =>
      rw [cut, List.tail_cons] at same
      have several : others ≠ [] := same ▸ pieces_ne_nil _ _
      refine ⟨first, not_mem_of_mem_pieces '.' _ first (cut ▸ List.mem_cons_self), ?_⟩
      rw [eq_of_pieces_eq_cons '.' _ first others several cut, same, joinPieces_pieces]
  · rintro ⟨label, clean, whole⟩
    rw [whole, pieces_append '.' label _ clean, List.tail_cons]

@[simp] theorem isDirectlyUnder_canonical (name tld : String) :
    isDirectlyUnder (canonical name) tld = isDirectlyUnder name tld := by
  simp only [isDirectlyUnder, labels, bareChars_toList_canonical]

/-- A TLD that a name lies directly under is not empty, since no bare form ends in a dot. -/
theorem bareChars_ne_nil_of_isDirectlyUnder {name tld : String}
    (direct : isDirectlyUnder name tld = true) : bareChars tld.toList ≠ [] := by
  obtain ⟨label, _, whole⟩ := (isDirectlyUnder_iff name tld).mp direct
  intro empty
  have dot := getLast?_bareChars name.toList '.' (by rw [whole, empty, List.getLast?_concat])
  exact absurd dot (by decide)

theorem isStrictlyUnder_of_isDirectlyUnder {name tld : String}
    (direct : isDirectlyUnder name tld = true) : isStrictlyUnder name tld = true := by
  obtain ⟨label, _, whole⟩ := (isDirectlyUnder_iff name tld).mp direct
  exact (isStrictlyUnder_iff name tld).mpr
    ⟨bareChars_ne_nil_of_isDirectlyUnder direct, label, whole⟩

/-- Such a name is its own registered domain. -/
theorem registeredDomain?_of_isDirectlyUnder {name tld : String}
    (direct : isDirectlyUnder name tld = true) : registeredDomain? name tld = some (bare name) := by
  obtain ⟨label, clean, whole⟩ := (isDirectlyUnder_iff name tld).mp direct
  rw [registeredDomain?_eq_some_iff]
  refine ⟨bareChars_ne_nil_of_isDirectlyUnder direct, label, label, whole, ?_, ?_⟩
  · rw [pieces_of_not_mem '.' label clean, List.getLast?_singleton]
  · rw [bare, whole]

/-- What lies under a name that lies under the TLD has its registered domain. -/
theorem registeredDomain?_of_below {name owner tld : String}
    (below : isStrictlyUnder name owner = true) (above : isStrictlyUnder owner tld = true) :
    registeredDomain? name tld = registeredDomain? owner tld := by
  obtain ⟨_, front, whole⟩ := (isStrictlyUnder_iff name owner).mp below
  obtain ⟨filled, before, cut⟩ := (isStrictlyUnder_iff owner tld).mp above
  obtain ⟨label, last⟩ :=
    Option.isSome_iff_exists.mp (List.getLast?_isSome.mpr (pieces_ne_nil '.' before))
  have owned : registeredDomain? owner tld =
      some (String.ofList (label ++ '.' :: bareChars tld.toList)) :=
    (registeredDomain?_eq_some_iff _ _ _).mpr ⟨filled, before, label, cut, last, rfl⟩
  rw [owned, registeredDomain?_eq_some_iff]
  refine ⟨filled, front ++ '.' :: before, label, ?_, ?_, rfl⟩
  · rw [whole, cut, List.append_assoc, List.cons_append]
  · rw [getLast?_pieces_append, last]

/-- A name directly under the TLD is the registered domain of everything under it. -/
theorem registeredDomain?_of_isStrictlyUnder {name owner tld : String}
    (direct : isDirectlyUnder owner tld = true) (below : isStrictlyUnder name owner = true) :
    registeredDomain? name tld = some (bare owner) :=
  (registeredDomain?_of_below below (isStrictlyUnder_of_isDirectlyUnder direct)).trans
    (registeredDomain?_of_isDirectlyUnder direct)

section BlankFree

variable {tld : String} (blankFree : ∀ c ∈ tld.toList, isBlank c = false)

include blankFree

/-- A registered domain lies directly under its TLD. -/
theorem isDirectlyUnder_registeredDomain? {host domain : String}
    (registered : registeredDomain? host tld = some domain) :
    isDirectlyUnder domain tld = true := by
  obtain ⟨filled, before, label, _, last, rfl⟩ :=
    (registeredDomain?_eq_some_iff host tld domain).mp registered
  have clean : '.' ∉ label := not_mem_of_mem_pieces '.' before label (List.mem_of_getLast? last)
  have front : (label ++ '.' :: bareChars tld.toList).dropWhile isBlank =
      label.dropWhile isBlank ++ '.' :: bareChars tld.toList := by
    rw [List.dropWhile_append]
    split
    · rename_i blank
      rw [List.isEmpty_iff.mp blank, List.nil_append]
      exact List.dropWhile_cons_of_neg (by decide)
    · rfl
  have ends : (label.dropWhile isBlank ++ '.' :: bareChars tld.toList).getLast? =
      (bareChars tld.toList).getLast? := getLast?_append_bareChars _ _ filled
  have trimmed : trimChars (label ++ '.' :: bareChars tld.toList) =
      label.dropWhile isBlank ++ '.' :: bareChars tld.toList := by
    rw [trimChars, front]
    exact dropEnd_of_getLast? _ _ fun c final =>
      isBlank_getLast?_bareChars tld.toList blankFree c (ends ▸ final)
  have undotted : dropEnd (· == '.') (label.dropWhile isBlank ++ '.' :: bareChars tld.toList) =
      label.dropWhile isBlank ++ '.' :: bareChars tld.toList :=
    dropEnd_of_getLast? _ _ fun c final => getLast?_bareChars tld.toList c (ends ▸ final)
  rw [isDirectlyUnder_iff]
  refine ⟨(label.dropWhile isBlank).map lowerChar, ?_, ?_⟩
  · intro member
    obtain ⟨c, inRest, dot⟩ := List.mem_map.mp member
    rw [lowerChar_eq_iff c '.' (by decide)] at dot
    exact clean ((List.dropWhile_suffix _).subset (dot ▸ inRest))
  · rw [String.toList_ofList, bareChars, trimmed, undotted, List.map_append, List.map_cons,
      map_lowerChar_bareChars]
    rfl

/-- The bare form of a name under the TLD stays when it is taken again. -/
theorem bare_bare_of_isStrictlyUnder {name : String} (below : isStrictlyUnder name tld = true) :
    bare (bare name) = bare name := by
  obtain ⟨filled, before, whole⟩ := (isStrictlyUnder_iff name tld).mp below
  have stays : bareChars (bareChars name.toList) = bareChars name.toList := by
    refine bareChars_bareChars _ fun c final => ?_
    rw [whole, getLast?_append_bareChars _ _ filled] at final
    exact isBlank_getLast?_bareChars tld.toList blankFree c final
  rw [bare, bare, String.toList_ofList, stays]

theorem bare_bare_of_isDirectlyUnder {name : String} (direct : isDirectlyUnder name tld = true) :
    bare (bare name) = bare name :=
  bare_bare_of_isStrictlyUnder blankFree (isStrictlyUnder_of_isDirectlyUnder direct)

theorem canonical_bare_of_isDirectlyUnder {name : String}
    (direct : isDirectlyUnder name tld = true) : canonical (bare name) = canonical name :=
  canonical_eq_of_bare_eq _ _ (bare_bare_of_isDirectlyUnder blankFree direct)

end BlankFree

end Zonecast.Name
