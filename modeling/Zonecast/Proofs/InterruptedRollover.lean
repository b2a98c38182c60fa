/-
What failing calls can do to a rollover. A pass that is cut short leaves some mix of keys and tag,
and the next pass starts from there. As long as the tag names the time of a successor, there is one,
so the next pass in which no call fails goes on with the rollover. One place is different. If the
successor was activated and a later call of that pass failed, the old tag stays although its
successor is spent. Then the zone is stranded, unless another inactive zone signing key is left: a
pass only says that the keys are inconsistent, and it takes an operator to tag the zone anew.
-/
import Zonecast.Proofs.RolloverTurns
import Zonecast.Proofs.RotationTags

namespace Zonecast.Upkeep

open Process Zone

/-! ### Invariants -/

/-- A signed zone whose next zone signing key is there as soon as a tag names its time. -/
structure Ready (held : Holding) : Prop extends Marked held where
  successor : ∀ since, Rotation.ofAccount held.account = .activating since →
    ∃ key ∈ held.ring.keys, key.role = .zoneSigning ∧ key.active = false

/-- A signed zone whose zone signing key is to be replaced some time. -/
structure Expiring (held : Holding) : Prop extends Marked held where
  tagged : ∃ since, Rotation.ofAccount held.account = .expiring since

theorem ready_of_expiring {held : Holding} (expiring : Expiring held) : Ready held where
  toMarked := expiring.toMarked
  successor := by
    intro since state
    obtain ⟨other, expires⟩ := expiring.tagged
    cases state.symm.trans expires

/-- A zone that is ready is never stranded. -/
theorem Ready.not_stranded {held : Holding} (ready : Ready held) (instant : Instant) :
    ¬Stranded held instant := by
  rintro ⟨⟨since, state, _⟩, spent⟩
  obtain ⟨key, member, role, inactive⟩ := ready.successor since state
  exact Bool.false_ne_true (inactive.symm.trans (spent key member role))

/-- Times that are tagged at this reading of the clock can be read back. -/
structure Roomy (defaults : Defaults) (instant : Instant) : Prop where
  regular : instant.Regular
  expiry : (instant.addMillis zoneKeyLifetime).Representable
  activation : (instant.addMillis (activationDelay defaults)).Representable

/-- A zone with a recognised tag. -/
def Tagged (held : Holding) : Prop :=
  ∃ since, Names held.account since

/-- A call of the pass failed after its activation of a key had succeeded. -/
def Pass.CutOff (zone : String) (pass : Pass) : Prop :=
  ∃ earlier number later request error,
    pass.exchanges = earlier ++ served (.setKeyActive zone number true) () :: later ∧
      refused request error ∈ later

section Steps

variable {defaults : Defaults} {zone : String} {before after : Holding} {pass : Pass}

/-- A successor that was published is there. -/
theorem successor_of_created {stored : SigningKey} {ring after : Keyring}
    (created : Takes zone (.createKey zone successorKey) stored ring after) :
    ∃ key ∈ after.keys, key.role = .zoneSigning ∧ key.active = false := by
  cases created with
  | created before after used key number ds fresh =>
    exact ⟨_, List.mem_append_right _ List.mem_cons_self, rfl, rfl⟩
  | elsewhere _ _ _ apart => exact absurd apart self_ne_false

/-- A pass leaves a signed zone signed. -/
theorem marked_of_checks (marked : Marked before)
    (checks : Checks defaults zone before pass after) : Marked after where
  signed := signed_of_checks marked.signed checks
  marked := by
    rcases (checks_iff marked).mp checks with
      ⟨_, _, rfl, _⟩ | ⟨_, _, _, _, _, turn⟩
    · exact marked.marked
    · generalize pass.result = result at turn
      cases turn with
      | published => rfl
      | _ => exact marked.marked

/-- A pass that is not cut off leaves a zone that is ready so. -/
theorem ready_of_checks (ready : Ready before) (whole : ¬pass.CutOff zone)
    (checks : Checks defaults zone before pass after) : Ready after where
  toMarked := marked_of_checks ready.toMarked checks
  successor := by
    intro since tagged
    rcases (checks_iff ready.toMarked).mp checks with
      ⟨_, _, rfl, _⟩ | ⟨keys, active, rest, listing, calls, turn⟩
    · exact ready.successor since tagged
    generalize pass.result = result at turn
    cases turn with
    | waiting | unpublished | stranded | unactivated => exact ready.successor since tagged
    | tracked state records =>
      cases records with
      | stored => exact absurd tagged (Rotation.ofAccount_expiring_ne_activating _ _)
      | failed => cases state.symm.trans tagged
    | published since state due created records => exact successor_of_created created
    | undeleted since state due next newId oldId error =>
      exact absurd ⟨_, _, _, _, error, calls, List.mem_cons_self⟩ whole
    | finished since state due next newId oldId records =>
      cases records with
      | stored => exact absurd tagged (Rotation.ofAccount_expiring_ne_activating _ _)
      | failed error =>
        exact absurd ⟨_, _, _, _, error, calls, List.mem_cons_of_mem _ List.mem_cons_self⟩ whole

/-- A recognised tag stays one, at a reading whose tags can be read back. -/
theorem tagged_of_checks (marked : Marked before) (tagged : Tagged before)
    (roomy : Roomy defaults pass.instant) (checks : Checks defaults zone before pass after) :
    Tagged after := by
  rcases (checks_iff marked).mp checks with
    ⟨_, _, rfl, _⟩ | ⟨_, _, _, _, _, turn⟩
  · exact tagged
  generalize pass.result = result at turn
  cases turn with
  | waiting | unpublished | stranded | unactivated | undeleted => exact tagged
  | tracked _ records | finished _ _ _ _ _ _ records =>
    cases records with
    | stored => exact ⟨_, Or.inl (Rotation.ofAccount_expiring roomy.expiry)⟩
    | failed => exact tagged
  | published _ _ _ _ records =>
    cases records with
    | stored => exact ⟨_, Or.inr (Rotation.ofAccount_activating roomy.activation)⟩
    | failed => exact tagged

/-- A pass in which no call fails succeeds over a zone that is not stranded. -/
theorem ok_of_unstranded (marked : Marked before)
    (checks : Checks defaults zone before pass after) (unfailing : pass.Unfailing)
    (unstranded : ¬Stranded before pass.instant) : pass.result = .ok () := by
  have advance := advance_of_checks marked checks unfailing
  generalize pass.result = result at advance ⊢
  cases advance with
  | stranded stranded => exact absurd stranded unstranded
  | _ => rfl

/-- Over a stranded zone it changes nothing and says that the keys are inconsistent. -/
theorem inconsistent_of_stranded (marked : Marked before)
    (checks : Checks defaults zone before pass after) (unfailing : pass.Unfailing)
    (stranded : Stranded before pass.instant) :
    pass.result = .error .inconsistent ∧ after = before := by
  have advance := advance_of_checks marked checks unfailing
  obtain ⟨since, state, due⟩ := stranded.due
  generalize pass.result = result at advance ⊢
  cases advance with
  | stranded => exact ⟨rfl, rfl⟩
  | tracked other => cases state.symm.trans other
  | begun _ other => cases state.symm.trans other
  | waiting other names early =>
    obtain rfl := names.unique (Or.inr state)
    exact absurd (early.symm.trans due) Bool.false_ne_true
  | finished _ _ _ rolled =>
    obtain ⟨successor, member, _, _, _, _, role, inactive, _⟩ := rolled.keys
    exact absurd (inactive.symm.trans (stranded.spent successor member role)) Bool.false_ne_true

/-- There is a pass in which no call fails, as long as a number is left for a new key. -/
theorem exists_unfailing (marked : Marked before) (left : ∃ number, number ∉ before.ring.used)
    (instant : Instant) :
    ∃ pass after, pass.instant = instant ∧ Checks defaults zone before pass after ∧
      pass.Unfailing := by
  obtain ⟨active, listing⟩ := exists_listing marked.signed (.refl _)
  suffices turns : ∃ rest after result,
      Turn defaults zone instant before before.ring.keys active rest after result ∧
        Settled rest by
    obtain ⟨rest, after, result, turn, settled⟩ := turns
    exact ⟨⟨instant, opening zone before.ring.keys instant ++ rest, result⟩, after, rfl,
      (checks_iff marked).mpr
        (Or.inr ⟨_, active, rest, listing, rfl, turn⟩), settled_opening.mpr settled⟩
  have stored : ∀ {settings}, Settled [served (.updateZone zone settings) ()] :=
    settled_served.mpr settled_nil
  cases state : Rotation.ofAccount before.account with
  | untracked => exact ⟨_, _, _, .tracked state .stored, stored⟩
  | expiring since =>
    cases due : since.le instant with
    | false => exact ⟨_, _, _, .waiting since (Or.inl state) due, settled_nil⟩
    | true =>
      obtain ⟨number, fresh⟩ := left
      exact ⟨_, _, _, .published since state due (.created [] _ _ successorKey number [] fresh)
        .stored, settled_served.mpr stored⟩
  | activating since =>
    cases due : since.le instant with
    | false => exact ⟨_, _, _, .waiting since (Or.inr state) due, settled_nil⟩
    | true =>
      cases next : zoneSigningKey? before.ring.keys false with
      | none => exact ⟨_, _, _, .stranded since state due next, settled_nil⟩
      | some successor =>
        obtain ⟨new, newId⟩ := number_of_listed marked.signed listing next
        obtain ⟨old, oldId⟩ := number_of_listed marked.signed listing listing.first
        exact ⟨_, _, _, .finished since state due next newId oldId .stored,
          settled_served.mpr (settled_served.mpr stored)⟩

end Steps

/-! ### Completion -/

/-- The clock does not go back from one pass to a later one. -/
def InOrder (passes : List Pass) : Prop :=
  passes.Pairwise fun earlier later => earlier.instant.le later.instant = true

/-- The passes come to the time that an account names and, where a rollover only starts then, a
later one comes to the time at which the successor takes over. -/
inductive InTime (defaults : Defaults) (account : Option String) (passes : List Pass) : Prop
  | activating (since : Instant) (state : Rotation.ofAccount account = .activating since)
      (pass : Pass) (member : pass ∈ passes) (due : since.le pass.instant = true)
  | expiring (since : Instant) (state : Rotation.ofAccount account = .expiring since)
      (first second : Pass) (among : [first, second].Sublist passes)
      (due : since.le first.instant = true)
      (delayed : (first.instant.addMillis (activationDelay defaults)).le second.instant = true)

/-- One of the passes completes a rollover. -/
def Completes (defaults : Defaults) (zone : String) (held : Holding) (passes : List Pass) : Prop :=
  ∃ earlier pass later before after, passes = earlier ++ pass :: later ∧
    Course defaults zone held earlier before ∧ Checks defaults zone before pass after ∧
    RolledOver before pass.instant after

section Completion

variable {defaults : Defaults} {zone : String} {held final : Holding} {passes : List Pass}

theorem completes_now {middle : Holding} {pass : Pass}
    (checks : Checks defaults zone held pass middle)
    (rolled : RolledOver held pass.instant middle) :
    Completes defaults zone held (pass :: passes) :=
  ⟨[], pass, passes, held, middle, rfl, .nil held, checks, rolled⟩

theorem completes_later {middle : Holding} {pass : Pass}
    (checks : Checks defaults zone held pass middle)
    (completes : Completes defaults zone middle passes) :
    Completes defaults zone held (pass :: passes) := by
  obtain ⟨earlier, last, later, before, after, rfl, course, completing, rolled⟩ := completes
  exact ⟨pass :: earlier, last, later, before, after, rfl, .cons checks course, completing, rolled⟩

/-- Passes in which no call fails complete a rollover whose successor is there, once they come to
its time. -/
theorem completes_of_activating {since : Instant} (marked : Marked held)
    (unstranded : ∀ instant, ¬Stranded held instant)
    (state : Rotation.ofAccount held.account = .activating since)
    (course : Course defaults zone held passes final)
    (unfailing : ∀ pass ∈ passes, pass.Unfailing) {last : Pass} (member : last ∈ passes)
    (due : since.le last.instant = true) : Completes defaults zone held passes := by
  induction course with
  | nil => cases member
  | cons checks rest inductionHypothesis =>
    rename_i before middle after pass passes
    have advance := advance_of_checks marked checks
      (unfailing pass List.mem_cons_self)
    generalize pass.result = result at advance
    cases advance with
    | tracked other => cases state.symm.trans other
    | begun _ other => cases state.symm.trans other
    | stranded stranded => exact absurd stranded (unstranded _)
    | finished _ _ _ rolled => exact completes_now checks rolled
    | waiting other names early =>
      obtain rfl := names.unique (Or.inr state)
      refine completes_later checks (inductionHypothesis marked unstranded state
        (fun pass member => unfailing pass (List.mem_cons_of_mem _ member)) ?_)
      refine (List.mem_cons.mp member).resolve_left ?_
      rintro rfl
      exact Bool.false_ne_true (early.symm.trans due)

/-- Passes in which no call fails start a rollover and complete it, once they come to its times. -/
theorem completes_of_expiring {since : Instant} (marked : Marked held)
    (state : Rotation.ofAccount held.account = .expiring since)
    (course : Course defaults zone held passes final)
    (unfailing : ∀ pass ∈ passes, pass.Unfailing) (inOrder : InOrder passes)
    (roomy : ∀ pass ∈ passes, Roomy defaults pass.instant) {first second : Pass}
    (among : [first, second].Sublist passes) (due : since.le first.instant = true)
    (delayed : (first.instant.addMillis (activationDelay defaults)).le second.instant = true) :
    Completes defaults zone held passes := by
  induction course with
  | nil => cases among
  | cons checks rest inductionHypothesis =>
    rename_i before middle after pass passes
    have advance := advance_of_checks marked checks
      (unfailing pass List.mem_cons_self)
    have markedMiddle := marked_of_checks marked checks
    have unfailingRest : ∀ pass ∈ passes, pass.Unfailing :=
      fun pass member => unfailing pass (List.mem_cons_of_mem _ member)
    generalize pass.result = result at advance
    cases advance with
    | tracked other => cases state.symm.trans other
    | stranded stranded =>
      obtain ⟨other, same, _⟩ := stranded.due
      cases state.symm.trans same
    | finished _ other => cases state.symm.trans other
    | waiting other names early =>
      obtain rfl := names.unique (Or.inl state)
      refine completes_later checks (inductionHypothesis marked state unfailingRest inOrder.tail
        (fun pass member => roomy pass (List.mem_cons_of_mem _ member)) ?_)
      cases among with
      | cons _ among => exact among
      | cons_cons => exact absurd (early.symm.trans due) Bool.false_ne_true
    | begun _ _ _ created =>
      have room := roomy pass List.mem_cons_self
      have ready : Ready _ := ⟨markedMiddle, fun _ _ => successor_of_created created⟩
      obtain ⟨member, soon⟩ : second ∈ passes ∧ pass.instant.le first.instant = true := by
        cases among with
        | cons _ among =>
          exact ⟨among.subset (List.mem_cons_of_mem _ List.mem_cons_self),
            List.rel_of_pairwise_cons inOrder (among.subset List.mem_cons_self)⟩
        | cons_cons _ among =>
          exact ⟨among.subset List.mem_cons_self, Instant.le_refl _⟩
      have firstRoom := (roomy first (among.subset List.mem_cons_self)).regular
      refine completes_later checks (completes_of_activating markedMiddle ready.not_stranded
        (Rotation.ofAccount_activating room.activation) rest unfailingRest member ?_)
      have written := Instant.ofMillis_toMillis_le
        (Instant.regular_addMillis pass.instant (activationDelay defaults))
      have shifted := Instant.addMillis_le (activationDelay defaults) room.regular firstRoom soon
      exact Instant.le_trans written (Instant.le_trans shifted delayed)

end Completion

/-! ### Interrupted rollovers -/

/-- What later passes make of a zone after these. -/
structure Resumes (defaults : Defaults) (zone : String) (passes : List Pass) (held : Holding) :
    Prop where
  /-- A pass in which no call fails succeeds, unless the zone is stranded. -/
  succeeds : ∀ pass after, Checks defaults zone held pass after → pass.Unfailing →
    ¬Stranded held pass.instant → pass.result = .ok ()
  /-- Then it changes nothing and says that the keys are inconsistent. -/
  waits : ∀ pass after, Checks defaults zone held pass after → pass.Unfailing →
    Stranded held pass.instant → pass.result = .error .inconsistent ∧ after = held
  /-- There is such a pass at any time, as long as a number is left for a new key. -/
  possible : (∃ number, number ∉ held.ring.used) → ∀ instant, ∃ pass after,
    pass.instant = instant ∧ Checks defaults zone held pass after ∧ pass.Unfailing
  /-- The zone is not stranded if no pass was cut off after an activation. -/
  unstranded : (∀ pass ∈ passes, ¬pass.CutOff zone) → ∀ instant, ¬Stranded held instant
  /-- It has a tag if all tags could be read back. -/
  tagged : (∀ pass ∈ passes, Roomy defaults pass.instant) → Tagged held
  /-- Further passes in which no call fails complete the rollover once its times have come. -/
  completes : ∀ later final, (∀ instant, ¬Stranded held instant) →
    Course defaults zone held later final → (∀ pass ∈ later, pass.Unfailing) → InOrder later →
    (∀ pass ∈ later, Roomy defaults pass.instant) → InTime defaults held.account later →
    Completes defaults zone held later

section Courses

variable {defaults : Defaults} {zone : String} {start held : Holding} {passes : List Pass}

/-- What a pass of some kind preserves, passes of that kind preserve. -/
theorem Course.preserves (invariant : Holding → Prop) (kind : Pass → Prop)
    (step : ∀ {before pass after}, invariant before → kind pass →
      Checks defaults zone before pass after → invariant after)
    (course : Course defaults zone start passes held) (all : ∀ pass ∈ passes, kind pass)
    (holds : invariant start) : invariant held := by
  induction course with
  | nil => exact holds
  | cons checks rest inductionHypothesis =>
    exact inductionHypothesis (fun pass member => all pass (List.mem_cons_of_mem _ member))
      (step holds (all _ List.mem_cons_self) checks)

/-- A rollover is resumed after interruptions. Whatever passes made of a zone with active keys and
an expiring key, with backend calls that failed as they liked: a pass in which no call fails
succeeds, and such passes complete the rollover once its times have come, unless an interruption
after an activation has left the zone stranded. -/
theorem resumes_of_course (defaults : Defaults) (zone : String) (start held : Holding)
    (passes : List Pass) (expiring : Expiring start)
    (course : Course defaults zone start passes held) : Resumes defaults zone passes held := by
  have marked : Marked held := course.preserves Marked (fun _ => True)
    (fun marked _ checks => marked_of_checks marked checks) (fun _ _ => trivial)
    expiring.toMarked
  constructor
  case succeeds =>
    exact fun _ _ checks unfailing unstranded =>
      ok_of_unstranded marked checks unfailing unstranded
  case waits =>
    exact fun _ _ checks unfailing stranded =>
      inconsistent_of_stranded marked checks unfailing stranded
  case possible => exact fun left instant => exists_unfailing marked left instant
  case unstranded =>
    intro whole
    have ready := course.preserves Ready _ ready_of_checks whole (ready_of_expiring expiring)
    exact ready.not_stranded
  case tagged =>
    intro roomy
    obtain ⟨since, state⟩ := expiring.tagged
    have kept := course.preserves (fun held => Marked held ∧ Tagged held) _
      (fun holds room checks => ⟨marked_of_checks holds.1 checks,
        tagged_of_checks holds.1 holds.2 room checks⟩)
      roomy ⟨expiring.toMarked, since, Or.inl state⟩
    exact kept.2
  case completes =>
    intro later final unstranded following unfailing inOrder roomy inTime
    cases inTime with
    | activating since state last member due =>
      exact completes_of_activating marked unstranded state following unfailing member due
    | expiring since state first second among due delayed =>
      exact completes_of_expiring marked state following unfailing inOrder roomy among due delayed

end Courses

/-! ### An interrupted rollover -/

/-- A zone whose zone signing key is to be replaced by now. -/
def exampleHeld : Holding where
  ring := ⟨[exampleKey 1 .keySigning true, exampleKey 2 .zoneSigning true], [1, 2]⟩
  signed := true
  account := some (Rotation.expiring (.ofMillis 0)).toAccount

/-- The successor as it is stored. -/
def exampleSuccessor : SigningKey := { successorKey with id := some 3, ds := [] }

/-- The time at which the successor takes over. -/
def exampleTakeover : Instant := (Instant.ofMillis 0).addMillis (activationDelay exampleDefaults)

/-- That zone once its successor is published. -/
def exampleBegun : Holding where
  ring := ⟨exampleHeld.ring.keys ++ [exampleSuccessor], 3 :: exampleHeld.ring.used⟩
  signed := true
  account := some (Rotation.activating exampleTakeover).toAccount

/-- That zone once its successor is active as well. -/
def exampleStranded : Holding :=
  { exampleBegun with ring := exampleBegun.ring.switching 3 true }

def exampleFinished : Holding where
  ring := exampleStranded.ring.without 2
  signed := true
  account := some (Rotation.expiring (exampleTakeover.addMillis zoneKeyLifetime)).toAccount

/-- A pass over the test zone at some time with these calls after the first two. -/
def examplePass (instant : Instant) (held : Holding) (rest : List (Exchange Upkeep))
    (result : Except Error Unit) : Pass :=
  ⟨instant, opening "test." held.ring.keys instant ++ rest, result⟩

def exampleBeginning : Pass :=
  examplePass (.ofMillis 0) exampleHeld
    [served (.createKey "test." successorKey) exampleSuccessor,
      served (.updateZone "test." ⟨exampleBegun.account, none⟩) ()] (.ok ())

/-- The successor is activated, the old key cannot be deleted. -/
def exampleCutOff : Pass :=
  examplePass exampleTakeover exampleBegun
    [served (.setKeyActive "test." 3 true) (),
      refused (.deleteKey "test." 2) (.transport "delete_cryptokey")]
    (.error (.backend (.transport "delete_cryptokey")))

/-- A pass in which no call fails. -/
def exampleRetry : Pass :=
  examplePass exampleTakeover exampleStranded [] (.error .inconsistent)

/-- The successor cannot be activated. -/
def exampleFailure : Pass :=
  examplePass exampleTakeover exampleBegun
    [refused (.setKeyActive "test." 3 true) (.transport "set_cryptokey_active")]
    (.error (.backend (.transport "set_cryptokey_active")))

def exampleEnding : Pass :=
  examplePass exampleTakeover exampleBegun
    [served (.setKeyActive "test." 3 true) (), served (.deleteKey "test." 2) (),
      served (.updateZone "test." ⟨exampleFinished.account, none⟩) ()] (.ok ())

theorem expiring_exampleHeld : Expiring exampleHeld where
  marked := rfl
  signed := ⟨by decide, by decide, ⟨_, List.mem_cons_self, rfl, rfl⟩,
    ⟨_, List.mem_cons_of_mem _ List.mem_cons_self, rfl, rfl⟩⟩
  tagged := ⟨_, Rotation.ofAccount_expiring (by decide)⟩

theorem checks_exampleBeginning :
    Checks exampleDefaults "test." exampleHeld exampleBeginning exampleBegun := by
  have marked := expiring_exampleHeld.toMarked
  refine (checks_iff marked).mpr (Or.inr ⟨exampleHeld.ring.keys,
    exampleKey 2 .zoneSigning true, _, ⟨.refl _, rfl⟩, rfl, ?_⟩)
  exact .published _ (Rotation.ofAccount_expiring (by decide)) (by decide)
    (.created exampleHeld.ring.keys [] [1, 2] successorKey 3 [] (by decide)) .stored

/-- A pass over the zone with its successor, from what it comes to. -/
theorem checks_exampleBegun {pass : Pass} {rest : List (Exchange Upkeep)} {after : Holding}
    (calls : pass.exchanges = opening "test." exampleBegun.ring.keys pass.instant ++ rest)
    (turn : Turn exampleDefaults "test." pass.instant exampleBegun exampleBegun.ring.keys
      (exampleKey 2 .zoneSigning true) rest after pass.result) :
    Checks exampleDefaults "test." exampleBegun pass after := by
  have marked := marked_of_checks expiring_exampleHeld.toMarked checks_exampleBeginning
  exact (checks_iff marked).mpr
    (Or.inr ⟨_, _, rest, ⟨.refl _, rfl⟩, calls, turn⟩)

theorem state_exampleBegun :
    Rotation.ofAccount exampleBegun.account = .activating exampleTakeover :=
  Rotation.ofAccount_activating (by decide)

theorem next_exampleBegun :
    zoneSigningKey? exampleBegun.ring.keys false = some exampleSuccessor :=
  rfl

/-- A rollover that is not resumed. The successor is published and activated, but the old key is not
deleted. From then on passes fail although no call does. -/
theorem stranded_exampleHeld :
    Expiring exampleHeld ∧
      Course exampleDefaults "test." exampleHeld [exampleBeginning, exampleCutOff]
        exampleStranded ∧
      Checks exampleDefaults "test." exampleStranded exampleRetry exampleStranded ∧
      InOrder [exampleBeginning, exampleCutOff, exampleRetry] ∧
      exampleRetry.Unfailing ∧ exampleRetry.result = .error .inconsistent := by
  have cut : Checks exampleDefaults "test." exampleBegun exampleCutOff exampleStranded :=
    checks_exampleBegun rfl (.undeleted exampleTakeover state_exampleBegun (by decide)
      next_exampleBegun rfl rfl _)
  have marked := marked_of_checks
    (marked_of_checks expiring_exampleHeld.toMarked checks_exampleBeginning) cut
  refine ⟨expiring_exampleHeld, .cons checks_exampleBeginning (.cons cut (.nil _)), ?_, ?_,
    settled_opening.mpr settled_nil, rfl⟩
  · exact (checks_iff marked).mpr (Or.inr ⟨_, exampleKey 2 .zoneSigning true,
      [], ⟨.refl _, rfl⟩, rfl, .stranded exampleTakeover state_exampleBegun (by decide) rfl⟩)
  · unfold InOrder
    decide

/-- A rollover that is resumed. The activation of the successor fails, and then a pass in which no
call fails completes the rollover. -/
theorem resumed_exampleHeld :
    Expiring exampleHeld ∧
      Course exampleDefaults "test." exampleHeld [exampleBeginning, exampleFailure]
        exampleBegun ∧
      Checks exampleDefaults "test." exampleBegun exampleEnding exampleFinished ∧
      exampleEnding.result = .ok () ∧
      Completes exampleDefaults "test." exampleBegun [exampleEnding] := by
  have course : Course exampleDefaults "test." exampleHeld [exampleBeginning, exampleFailure]
      exampleBegun :=
    .cons checks_exampleBeginning (.cons (checks_exampleBegun rfl (.unactivated exampleTakeover
      state_exampleBegun (by decide) next_exampleBegun rfl rfl _)) (.nil _))
  have resumes := resumes_of_course exampleDefaults "test." exampleHeld exampleBegun
    [exampleBeginning, exampleFailure] expiring_exampleHeld course
  have ending : Checks exampleDefaults "test." exampleBegun exampleEnding exampleFinished :=
    checks_exampleBegun rfl (.finished exampleTakeover state_exampleBegun (by decide)
      next_exampleBegun rfl rfl .stored)
  have unfailing : exampleEnding.Unfailing :=
    settled_opening.mpr (settled_served.mpr (settled_served.mpr (settled_served.mpr settled_nil)))
  have whole : ∀ pass ∈ [exampleBeginning, exampleFailure], ¬pass.CutOff "test." := by
    rintro pass member ⟨earlier, number, later, request, error, calls, failed⟩
    rcases List.mem_pair.mp member with rfl | rfl
    · have settled : exampleBeginning.Unfailing :=
        settled_opening.mpr (settled_served.mpr (settled_served.mpr settled_nil))
      refine settled request error ?_
      rw [calls]
      exact List.mem_append_right _ (List.mem_cons_of_mem _ failed)
    · have activated :
          served (.setKeyActive "test." number true) () ∈ exampleFailure.exchanges := by
        rw [calls]
        exact List.mem_append_right _ List.mem_cons_self
      rcases List.mem_cons.mp activated with same | activated
      · cases same
      rcases List.mem_cons.mp activated with same | activated
      · cases same
      · exact refused_ne_served (List.mem_singleton.mp activated).symm
  have free := resumes.unstranded whole
  refine ⟨expiring_exampleHeld, course, ending,
    resumes.succeeds _ _ ending unfailing (free _),
    resumes.completes _ _ free (.cons ending (.nil _)) (List.forall_mem_singleton.mpr unfailing)
      (List.pairwise_singleton _ _)
      (List.forall_mem_singleton.mpr ⟨by decide, by decide, by decide⟩)
      (.activating exampleTakeover state_exampleBegun _ List.mem_cons_self (by decide))⟩

end Zonecast.Upkeep
