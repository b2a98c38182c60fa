/-
How a zone comes to be signed if calls fail on the way. To sign an unsigned zone takes five calls,
and the first of them already makes the zone count as signed, so the check does not start over.
What the later passes make of it depends on where the first was cut short. Without a key it is
unsigned still, and the next pass starts over. With both keys it only lacks its tag, which any
later pass gives it. But with a key signing key alone, a pass says that the keys are inconsistent,
and it takes an operator to go on.

Metadata is created in a pass that signs a zone and in no other. So it is there afterwards unless
that very call failed.
-/
import Zonecast.Proofs.InterruptedRollover

namespace Zonecast.Upkeep

open Process Zone

/-! ### Calls -/

/-- One of these calls is a certain backend call that failed. -/
def Refuses (request : Backend.Call) (exchanges : List (Exchange Upkeep)) : Prop :=
  ∃ error, refused request error ∈ exchanges

/-- The values of a kind of metadata that a call adds to those of a zone. Metadata is created by
adding to what there is. -/
def addedValues (zone kind : String) : Exchange Upkeep → List String
  | ⟨.backend (.createMetadata other metadata), .ok _⟩ =>
    if other = zone ∧ metadata.kind = kind then metadata.values else []
  | _ => []

section Refusals

variable {request : Backend.Call} {exchanges : List (Exchange Upkeep)}

theorem not_refuses_nil : ¬Refuses request [] :=
  fun ⟨_, member⟩ => List.not_mem_nil member

theorem refuses_served {call : Backend.Call} {value : Backend.Value call} :
    Refuses request (served call value :: exchanges) ↔ Refuses request exchanges :=
  exists_congr fun _ => List.mem_cons.trans (or_iff_right refused_ne_served)

/-- A call that is another one is none of these that failed. -/
theorem not_refuses_cons {exchange : Exchange Upkeep} (other : exchange.request ≠ .backend request)
    (rest : ¬Refuses request exchanges) : ¬Refuses request (exchange :: exchanges) := by
  rintro ⟨error, member⟩
  rcases List.mem_cons.mp member with same | later
  · exact other (congrArg Exchange.request same).symm
  · exact rest ⟨error, later⟩

theorem refuses_append {later : List (Exchange Upkeep)} :
    Refuses request (exchanges ++ later) ↔ Refuses request exchanges ∨ Refuses request later := by
  constructor
  · rintro ⟨error, member⟩
    exact (List.mem_append.mp member).imp (fun first => ⟨error, first⟩) fun last => ⟨error, last⟩
  · rintro (⟨error, member⟩ | ⟨error, member⟩)
    · exact ⟨error, List.mem_append_left _ member⟩
    · exact ⟨error, List.mem_append_right _ member⟩

theorem not_refuses_of_settled (settled : Settled exchanges) : ¬Refuses request exchanges :=
  fun ⟨error, member⟩ => settled request error member

end Refusals

section Calls

variable {zone : String} {before after : Holding}

/-- A call that is neither about the keys nor about the account leaves a zone as it is. -/
theorem serves_aside {request : Backend.Call} {value : Backend.Value request}
    (apart : concernsKeys zone request = false)
    (signed : ∀ signed, signedAfter zone request signed = signed)
    (account : ∀ account, accountAfter zone request account = account) :
    Serves zone request value before after ↔ after = before := by
  constructor
  · rintro ⟨takes, marked, stored⟩
    refine Holding.ext ?_ (marked.trans (signed _)) (stored.trans (account _))
    generalize before.ring = ring, after.ring = ring' at takes
    cases takes with
    | elsewhere => rfl
    | listed | created | switched | deleted => exact absurd apart self_ne_false
  · rintro rfl
    exact ⟨.elsewhere _ _ _ apart, (signed _).symm, (account _).symm⟩

end Calls

/-! ### Signing an unsigned zone -/

/-- The metadata of a signed zone. -/
def signingMetadata : Metadata := ⟨"SOA-EDIT", ["INCREMENT-WEEKS"]⟩

/-- The settings by which an unsigned zone that has its keys is tagged. -/
def signingSettings (instant : Instant) : Settings :=
  ⟨some (Rotation.expiring (instant.addMillis zoneKeyLifetime)).toAccount, some true⟩

/-- The last call of a pass that signs a zone; its failure is counted. -/
inductive Rectifies (zone : String) : List (Exchange Upkeep) → Prop
  | done : Rectifies zone [served (.rectifyZone zone) ()]
  | counted (error : Backend.Error) :
    Rectifies zone [refused (.rectifyZone zone) error, ⟨Call.countRectifyFailure, ()⟩]

/-- What is left of signing a zone that has its keys, the account that it leaves and the result. -/
inductive Describes (zone : String) (instant : Instant) (account : Option String) :
    List (Exchange Upkeep) → Option String → Except Error Unit → Prop
  | undescribed (error : Backend.Error) :
    Describes zone instant account [refused (.createMetadata zone signingMetadata) error] account
      (.error (.backend error))
  | untagged (error : Backend.Error) :
    Describes zone instant account
      [served (.createMetadata zone signingMetadata) (), clocked instant,
        refused (.updateZone zone (signingSettings instant)) error] account
      (.error (.backend error))
  | tagged {last : List (Exchange Upkeep)} (rectifies : Rectifies zone last) :
    Describes zone instant account
      (served (.createMetadata zone signingMetadata) () :: clocked instant ::
        served (.updateZone zone (signingSettings instant)) () :: last)
      (signingSettings instant).account (.ok ())

/-- What a pass over an unsigned zone comes to. -/
inductive Enabling (zone : String) (instant : Instant) (before : Holding) :
    List (Exchange Upkeep) → Holding → Except Error Unit → Prop
  | unkeyed (error : Backend.Error) :
    Enabling zone instant before [refused (.createKey zone newKeySigningKey) error] before
      (.error (.backend error))
  /-- There is a key signing key only. -/
  | halved {anchor : SigningKey} {ring : Keyring}
      (anchored : Takes zone (.createKey zone newKeySigningKey) anchor before.ring ring)
      (error : Backend.Error) :
    Enabling zone instant before
      [served (.createKey zone newKeySigningKey) anchor,
        refused (.createKey zone newZoneSigningKey) error]
      ⟨ring, true, before.account⟩ (.error (.backend error))
  | keyed {anchor signer : SigningKey} {ring ring' : Keyring}
      (anchored : Takes zone (.createKey zone newKeySigningKey) anchor before.ring ring)
      (signing : Takes zone (.createKey zone newZoneSigningKey) signer ring ring')
      {rest : List (Exchange Upkeep)} {account : Option String} {result : Except Error Unit}
      (describes : Describes zone instant before.account rest account result) :
    Enabling zone instant before
      (served (.createKey zone newKeySigningKey) anchor ::
        served (.createKey zone newZoneSigningKey) signer :: rest)
      ⟨ring', true, account⟩ result

section Paths

variable {zone : String} {instant : Instant} {before after : Holding} {reading : Detail}
  {exchanges : List (Exchange Upkeep)} {result : Except Error Unit}

/-- The last call, whose failure is not one of the pass. -/
def rectify (reading : Detail) : Step Unit := do
  match ← attempt (.rectifyZone reading.id) with
  | .ok _ => pure ()
  | .error _ => ExceptT.lift (Process.perform (I := Upkeep) .countRectifyFailure)

/-- What is left of signing a zone that has its keys. -/
def describe (reading : Detail) : Step Unit :=
  ask (.createMetadata reading.id signingMetadata) >>= fun _ => now >>= fun instant =>
    ask (.updateZone reading.id (signingSettings instant)) >>= fun _ => rectify reading

theorem enableSigning_eq (reading : Detail) :
    enableSigning reading =
      ask (.createKey reading.id newKeySigningKey) >>= fun _ =>
        ask (.createKey reading.id newZoneSigningKey) >>= fun _ => describe reading :=
  rfl

theorem path_rectify (fresh : reading.id = zone) :
    Path zone instant (rectify reading).run before exchanges after result ↔
      Rectifies zone exchanges ∧ after = before ∧ result = .ok () := by
  subst fresh
  have calls : (rectify reading).run = .call (I := Upkeep) (.backend (.rectifyZone reading.id)) fun
      reply : Except Backend.Error Unit => match reply with
        | .ok _ => .done (.ok ())
        | .error _ => .call (I := Upkeep) .countRectifyFailure fun _ => .done (.ok ()) := by
    refine congrArg (Process.call (I := Upkeep) _) (funext fun reply => ?_)
    cases reply <;> rfl
  rw [calls]
  refine path_call.trans ⟨?_, ?_⟩
  · rintro ⟨reply, middle, rest, rfl, replies, onwards⟩
    cases replies with
    | served serves =>
      obtain rfl := (serves_aside rfl (fun _ => rfl) fun _ => rfl).mp serves
      obtain ⟨rfl, rfl, rfl⟩ := path_done.mp onwards
      exact ⟨.done, rfl, rfl⟩
    | refused _ _ error =>
      obtain ⟨_, _, _, rfl, counted, onwards⟩ := path_call.mp onwards
      cases counted
      obtain ⟨rfl, rfl, rfl⟩ := path_done.mp onwards
      exact ⟨.counted error, rfl, rfl⟩
  · rintro ⟨rectifies, rfl, rfl⟩
    cases rectifies with
    | done =>
      exact ⟨.ok (), after, [], rfl,
        .served ((serves_aside rfl (fun _ => rfl) fun _ => rfl).mpr rfl),
        path_done.mpr ⟨rfl, rfl, rfl⟩⟩
    | counted error =>
      exact ⟨.error error, after, _, rfl, .refused _ _ _,
        path_call.mpr ⟨(), after, [], rfl, .countedRectifyFailure _,
          path_done.mpr ⟨rfl, rfl, rfl⟩⟩⟩

theorem path_describe (fresh : reading.id = zone) :
    Path zone instant (describe reading).run before exchanges after result ↔
      ∃ account, Describes zone instant before.account exchanges account result ∧
        after = { before with account } := by
  subst fresh
  refine path_ask_bind.trans ⟨?_, ?_⟩
  · rintro (⟨error, rfl, rfl, rfl⟩ | ⟨_, middle, rest, rfl, serves, onwards⟩)
    · exact ⟨_, .undescribed error, rfl⟩
    obtain rfl := (serves_aside rfl (fun _ => rfl) fun _ => rfl).mp serves
    obtain ⟨later, rfl, timed⟩ := path_now_bind.mp onwards
    rcases path_ask_bind.mp timed with
      ⟨error, rfl, rfl, rfl⟩ | ⟨_, tagged, last, rfl, updates, rectifying⟩
    · exact ⟨_, .untagged error, rfl⟩
    · obtain ⟨rectifies, rfl, rfl⟩ := (path_rectify rfl).mp rectifying
      exact ⟨_, .tagged rectifies, serves_updateZone.mp updates⟩
  · rintro ⟨account, describes, rfl⟩
    have described : Serves reading.id (.createMetadata reading.id signingMetadata) () before
        before := (serves_aside rfl (fun _ => rfl) fun _ => rfl).mpr rfl
    cases describes with
    | undescribed error => exact Or.inl ⟨error, rfl, rfl, rfl⟩
    | untagged error =>
      exact Or.inr ⟨(), _, _, rfl, described, path_now_bind.mpr ⟨_, rfl,
        path_ask_bind.mpr (Or.inl ⟨error, rfl, rfl, rfl⟩)⟩⟩
    | tagged rectifies =>
      exact Or.inr ⟨(), _, _, rfl, described, path_now_bind.mpr ⟨_, rfl,
        path_ask_bind.mpr (Or.inr ⟨(), _, _, rfl, serves_updateZone.mpr rfl,
          (path_rectify rfl).mpr ⟨rectifies, rfl, rfl⟩⟩)⟩⟩

theorem path_enableSigning (fresh : reading.id = zone) :
    Path zone instant (enableSigning reading).run before exchanges after result ↔
      Enabling zone instant before exchanges after result := by
  subst fresh
  rw [enableSigning_eq]
  refine path_ask_bind.trans ⟨?_, ?_⟩
  · rintro (⟨error, rfl, rfl, rfl⟩ | ⟨anchor, middle, rest, rfl, serves, onwards⟩)
    · exact .unkeyed error
    obtain ⟨ring, anchored, rfl⟩ := serves_createKey.mp serves
    rcases path_ask_bind.mp onwards with
      ⟨error, rfl, rfl, rfl⟩ | ⟨signer, keyed, rest, rfl, signs, onwards⟩
    · exact .halved anchored error
    obtain ⟨ring', signing, rfl⟩ := serves_createKey.mp signs
    obtain ⟨account, describes, rfl⟩ := (path_describe rfl).mp onwards
    exact .keyed anchored signing describes
  · intro enabling
    cases enabling with
    | unkeyed error => exact Or.inl ⟨error, rfl, rfl, rfl⟩
    | halved anchored error =>
      exact Or.inr ⟨_, _, _, rfl, serves_createKey.mpr ⟨_, anchored, rfl⟩,
        path_ask_bind.mpr (Or.inl ⟨error, rfl, rfl, rfl⟩)⟩
    | keyed anchored signing describes =>
      exact Or.inr ⟨_, _, _, rfl, serves_createKey.mpr ⟨_, anchored, rfl⟩,
        path_ask_bind.mpr (Or.inr ⟨_, _, _, rfl, serves_createKey.mpr ⟨_, signing, rfl⟩,
          (path_describe rfl).mpr ⟨_, describes, rfl⟩⟩)⟩

end Paths

/-! ### One pass -/

/-- The only key of a zone, a key signing key that is active. -/
structure Anchored (ring : Keyring) (anchor : SigningKey) : Prop where
  only : ring.keys = [anchor]
  numbered : ∃ number ∈ ring.used, anchor.id = some number
  role : anchor.role = .keySigning
  active : anchor.active = true

section Passes

variable {defaults : Defaults} {zone : String} {before after : Holding} {pass : Pass}
  {anchor : SigningKey}

theorem anchored_of_created {ring ring' : Keyring} (none : ring.keys = [])
    (created : Takes zone (.createKey zone newKeySigningKey) anchor ring ring') :
    Anchored ring' anchor := by
  cases created with
  | created earlier later used key number ds fresh =>
    obtain ⟨rfl, rfl⟩ := List.append_eq_nil_iff.mp none
    exact ⟨rfl, ⟨number, List.mem_cons_self, rfl⟩, rfl, rfl⟩
  | elsewhere _ _ _ apart => exact absurd apart self_ne_false

/-- With a zone signing key besides it the zone is signed. -/
theorem signed_of_anchored {signer : SigningKey} {ring ring' : Keyring}
    (anchored : Anchored ring anchor)
    (created : Takes zone (.createKey zone newZoneSigningKey) signer ring ring') :
    Signed ring' := by
  cases created with
  | created earlier later used key number ds fresh =>
    obtain ⟨other, member, id⟩ := anchored.numbered
    have keys : (earlier ++ { newZoneSigningKey with id := some number, ds } :: later).Perm
        [{ newZoneSigningKey with id := some number, ds }, anchor] :=
      List.perm_middle.trans (anchored.only ▸ .refl _)
    have held : ∀ key, key ∈ earlier ++ { newZoneSigningKey with id := some number, ds } :: later ↔
        key = { newZoneSigningKey with id := some number, ds } ∨ key = anchor := fun key =>
      keys.mem_iff.trans List.mem_pair
    refine ⟨fun key among => ?_, (keys.map _).nodup_iff.mpr ?_,
      ⟨anchor, (held anchor).mpr (Or.inr rfl), anchored.active, anchored.role⟩,
      ⟨_, (held _).mpr (Or.inl rfl), rfl, rfl⟩⟩
    · rcases (held key).mp among with rfl | rfl
      · exact ⟨number, List.mem_cons_self, rfl⟩
      · exact ⟨other, List.mem_cons_of_mem _ member, id⟩
    · refine List.nodup_cons.mpr ⟨fun same => ?_, List.nodup_singleton _⟩
      have equal := (List.mem_singleton.mp same).trans id
      exact fresh (Option.some.inj equal ▸ member)
  | elsewhere _ _ _ apart => exact absurd apart self_ne_false

/-- A pass over an unsigned zone goes about signing it. -/
theorem checks_iff_enabling (unmarked : before.signed = false) :
    Checks defaults zone before pass after ↔
      Enabling zone pass.instant before pass.exchanges after pass.result := by
  have calls : ∀ reading : Detail, reading.signed = false →
      checkSigning defaults reading = enableSigning reading := by
    intro reading unsigned
    rw [checkSigning, unsigned]
    rfl
  constructor
  · rintro ⟨reading, fresh, path⟩
    rw [calls reading (fresh.signed.trans unmarked)] at path
    exact (path_enableSigning fresh.id).mp path
  · intro enabling
    let reading : Detail := ⟨zone, zone, none, none, before.signed, before.account, []⟩
    have fresh : Read zone before reading := ⟨rfl, rfl, rfl⟩
    refine .read reading fresh ?_
    rw [calls reading unmarked]
    exact (path_enableSigning fresh.id).mpr enabling

/-- A pass over a zone with a key signing key only does not come beyond its keys. -/
theorem checks_iff_anchored (anchored : Anchored before.ring anchor)
    (marked : before.signed = true) :
    Checks defaults zone before pass after ↔ after = before ∧
      ((∃ error, pass.exchanges = [refused (.listKeys zone) error] ∧
          pass.result = .error (.backend error)) ∨
        pass.exchanges = [served (.listKeys zone) [anchor]] ∧
          pass.result = .error .inconsistent) := by
  have lacking : ∀ reading : Detail,
      (checkListed defaults reading [anchor]).run = .done (.error .inconsistent) := by
    intro reading
    have signer : ([anchor].find? fun key => key.active && key.role == .zoneSigning) = none := by
      rw [List.find?_singleton, anchored.active, anchored.role]
      rfl
    rw [checkListed, signer]
    cases [anchor].find? fun key => key.active && key.role == .keySigning <;> rfl
  constructor
  · rintro ⟨reading, fresh, path⟩
    rw [checkSigning_of_signed (fresh.signed.trans marked), fresh.id] at path
    rcases path_ask_bind.mp path with
      ⟨error, calls, same, failed⟩ | ⟨keys, middle, rest, calls, serves, onwards⟩
    · exact ⟨same, Or.inl ⟨error, calls, failed⟩⟩
    obtain ⟨listed, rfl⟩ := serves_listKeys.mp serves
    obtain rfl : keys = [anchor] := List.perm_singleton.mp (anchored.only ▸ listed)
    rw [lacking] at onwards
    obtain ⟨rfl, same, failed⟩ := path_done.mp onwards
    exact ⟨same, Or.inr ⟨calls, failed⟩⟩
  · rintro ⟨rfl, outcome⟩
    let reading : Detail := ⟨zone, zone, none, none, after.signed, after.account, []⟩
    refine .read reading ⟨rfl, rfl, rfl⟩ ?_
    rw [checkSigning_of_signed marked]
    refine path_ask_bind.mpr (outcome.imp ?_ ?_)
    · rintro ⟨error, calls, failed⟩
      exact ⟨error, calls, rfl, failed⟩
    · rintro ⟨calls, failed⟩
      refine ⟨[anchor], after, [], calls, serves_listKeys.mpr ⟨anchored.only ▸ .refl _, rfl⟩, ?_⟩
      rw [lacking]
      exact path_done.mpr ⟨rfl, rfl, failed⟩

/-- Over a signed zone only routine calls are made. -/
theorem routine_of_checks (marked : before.signed = true)
    (checks : Checks defaults zone before pass after) (exchange : Exchange Upkeep)
    (member : exchange ∈ pass.exchanges) : Routine exchange.request := by
  obtain ⟨reading, fresh, path⟩ := checks
  exact kind_of_mem (routine_checkSigning (fresh.signed.trans marked)) path.runs exchange member

end Passes

/-! ### Many passes -/

/-- How far a zone has come that was unsigned before these calls. -/
inductive Stage (zone : String) (exchanges : List (Exchange Upkeep)) (held : Holding) : Prop
  | unsigned (unmarked : held.signed = false) (unkeyed : held.ring.keys = [])
      (whole : ¬Refuses (.createKey zone newZoneSigningKey) exchanges)
      (none : exchanges.flatMap (addedValues zone "SOA-EDIT") = [])
  | halved {anchor : SigningKey} (marked : held.signed = true)
      (anchored : Anchored held.ring anchor)
      (cut : Refuses (.createKey zone newZoneSigningKey) exchanges)
  | keyed (marked : Marked held) (whole : ¬Refuses (.createKey zone newZoneSigningKey) exchanges)
      (described : ¬Refuses (.createMetadata zone signingMetadata) exchanges →
        exchanges.flatMap (addedValues zone "SOA-EDIT") = ["INCREMENT-WEEKS"])

/-- A signed zone with a recognised tag, and with its metadata unless the call for it failed. -/
structure Enabled (zone : String) (exchanges : List (Exchange Upkeep)) (held : Holding) : Prop
    extends Marked held where
  tagged : Tagged held
  described : ¬Refuses (.createMetadata zone signingMetadata) exchanges →
    exchanges.flatMap (addedValues zone "SOA-EDIT") = ["INCREMENT-WEEKS"]

/-- The calls that passes have made. -/
def made (passes : List Pass) : List (Exchange Upkeep) :=
  passes.flatMap fun pass => pass.exchanges

section Courses

variable {defaults : Defaults} {zone : String} {before after : Holding} {pass : Pass}
  {passes : List Pass} {exchanges earlier : List (Exchange Upkeep)}

/-- What is left creates no key. -/
theorem Describes.not_refuses {instant : Instant} {account account' : Option String}
    {result : Except Error Unit}
    (describes : Describes zone instant account exchanges account' result) :
    ¬Refuses (.createKey zone newZoneSigningKey) exchanges := by
  cases describes with
  | undescribed => exact not_refuses_cons nofun not_refuses_nil
  | untagged =>
    exact not_refuses_cons nofun (not_refuses_cons nofun (not_refuses_cons nofun not_refuses_nil))
  | tagged rectifies =>
    refine not_refuses_cons nofun (not_refuses_cons nofun (not_refuses_cons nofun ?_))
    cases rectifies with
    | done => exact not_refuses_cons nofun not_refuses_nil
    | counted => exact not_refuses_cons nofun (not_refuses_cons nofun not_refuses_nil)

theorem Describes.adds {instant : Instant} {account account' : Option String}
    {result : Except Error Unit}
    (describes : Describes zone instant account exchanges account' result)
    (whole : ¬Refuses (.createMetadata zone signingMetadata) exchanges) :
    exchanges.flatMap (addedValues zone "SOA-EDIT") = ["INCREMENT-WEEKS"] := by
  have adds : addedValues zone "SOA-EDIT" (served (.createMetadata zone signingMetadata) ()) =
      ["INCREMENT-WEEKS"] := if_pos ⟨rfl, rfl⟩
  cases describes with
  | undescribed error => exact absurd ⟨error, List.mem_cons_self⟩ whole
  | untagged => rw [List.flatMap_cons, adds]; rfl
  | tagged rectifies => cases rectifies <;> (rw [List.flatMap_cons, adds]; rfl)

theorem stage_of_enabling {instant : Instant} {result : Except Error Unit}
    (unmarked : before.signed = false) (unkeyed : before.ring.keys = [])
    (enabling : Enabling zone instant before exchanges after result) :
    Stage zone exchanges after := by
  cases enabling with
  | unkeyed error =>
    refine .unsigned unmarked unkeyed (not_refuses_cons (fun same => ?_) not_refuses_nil) rfl
    cases same
  | halved anchored error =>
    exact .halved rfl (anchored_of_created unkeyed anchored)
      ⟨error, List.mem_cons_of_mem _ List.mem_cons_self⟩
  | keyed anchored signing describes =>
    refine .keyed ⟨rfl, signed_of_anchored (anchored_of_created unkeyed anchored) signing⟩
      (fun refuses => describes.not_refuses (refuses_served.mp (refuses_served.mp refuses)))
      fun whole => ?_
    refine describes.adds fun refuses => whole ?_
    exact refuses_served.mpr (refuses_served.mpr refuses)

/-- Routine calls neither fail to create a key that signs at once nor add metadata. -/
theorem nothing_of_routine (routine : ∀ exchange ∈ exchanges, Routine exchange.request) :
    ¬Refuses (.createKey zone newZoneSigningKey) exchanges ∧
      exchanges.flatMap (addedValues zone "SOA-EDIT") = [] := by
  constructor
  · rintro ⟨error, member⟩
    have inactive : newZoneSigningKey.active = false := routine _ member
    cases inactive
  · refine List.flatMap_eq_nil_iff.mpr fun exchange member => ?_
    unfold addedValues
    split
    · exact (routine _ member).elim
    · rfl

/-- A pass takes a zone from one stage to another, or leaves it at its stage. -/
theorem stage_of_checks (stage : Stage zone earlier before)
    (checks : Checks defaults zone before pass after) :
    Stage zone (earlier ++ pass.exchanges) after := by
  cases stage with
  | unsigned unmarked unkeyed whole none =>
    have enabling := (checks_iff_enabling unmarked).mp checks
    have more : (earlier ++ pass.exchanges).flatMap (addedValues zone "SOA-EDIT") =
        pass.exchanges.flatMap (addedValues zone "SOA-EDIT") := by
      rw [List.flatMap_append, none, List.nil_append]
    cases stage_of_enabling unmarked unkeyed enabling with
    | unsigned unmarked unkeyed still nothing =>
      exact .unsigned unmarked unkeyed (fun refuses => (refuses_append.mp refuses).elim whole still)
        (more.trans nothing)
    | halved marked anchored cut =>
      exact .halved marked anchored (refuses_append.mpr (Or.inr cut))
    | keyed marked still described =>
      refine .keyed marked (fun refuses => (refuses_append.mp refuses).elim whole still)
        fun uncut => more.trans (described fun refuses => uncut ?_)
      exact refuses_append.mpr (Or.inr refuses)
  | halved marked anchored cut =>
    obtain ⟨rfl, _⟩ := (checks_iff_anchored anchored marked).mp checks
    exact .halved marked anchored (refuses_append.mpr (Or.inl cut))
  | keyed marked whole described =>
    obtain ⟨still, nothing⟩ := nothing_of_routine (routine_of_checks marked.marked checks)
    refine .keyed (marked_of_checks marked checks)
      (fun refuses => (refuses_append.mp refuses).elim whole still) fun uncut => ?_
    rw [List.flatMap_append, nothing, List.append_nil]
    exact described fun refuses => uncut (refuses_append.mpr (Or.inl refuses))

theorem stage_of_course (stage : Stage zone earlier before)
    (course : Course defaults zone before passes after) :
    Stage zone (earlier ++ made passes) after := by
  induction course generalizing earlier with
  | nil => rwa [made, List.flatMap_nil, List.append_nil]
  | cons checks rest inductionHypothesis =>
    rw [made, List.flatMap_cons, ← List.append_assoc]
    exact inductionHypothesis (stage_of_checks stage checks)

/-- A pass in which no call fails leaves a tag on a signed zone. -/
theorem tagged_of_advance {instant : Instant} {result : Except Error Unit}
    (expiry : (instant.addMillis zoneKeyLifetime).Representable)
    (activation : (instant.addMillis (activationDelay defaults)).Representable)
    (advance : Advance defaults zone instant before after result) : Tagged after := by
  cases advance with
  | tracked => exact ⟨_, Or.inl (Rotation.ofAccount_expiring expiry)⟩
  | waiting since names early => exact ⟨since, names⟩
  | begun => exact ⟨_, Or.inr (Rotation.ofAccount_activating activation)⟩
  | stranded stranded =>
    obtain ⟨since, state, _⟩ := stranded.due
    exact ⟨since, Or.inr state⟩
  | finished since state due rolled =>
    exact ⟨_, Or.inl (rolled.account ▸ Rotation.ofAccount_expiring expiry)⟩

/-- A pass over an unsigned zone in which no call fails marks it as signed and leaves a tag. -/
theorem tagged_of_enabling {instant : Instant} {result : Except Error Unit}
    (expiry : (instant.addMillis zoneKeyLifetime).Representable) (settled : Settled exchanges)
    (enabling : Enabling zone instant before exchanges after result) :
    after.signed = true ∧ Tagged after := by
  cases enabling with
  | unkeyed => exact absurd settled not_settled_refused
  | halved => exact absurd (settled_served.mp settled) not_settled_refused
  | keyed anchored signing describes =>
    have rest := settled_served.mp (settled_served.mp settled)
    cases describes with
    | undescribed => exact absurd rest not_settled_refused
    | untagged =>
      exact absurd (settled_clocked.mp (settled_served.mp rest)) not_settled_refused
    | tagged => exact ⟨rfl, _, Or.inl (Rotation.ofAccount_expiring expiry)⟩

/-- Signing a zone is resumed unless it was left with a key signing key only. Whatever calls failed
in passes over an unsigned zone without keys: a pass in which no call fails leaves it signed, with a
recognised tag, and with its metadata unless the call to create that had failed. If however the
zone signing key could not be created after the key signing key was, passes from then on change
nothing, and one in which no call fails says that the keys are inconsistent. -/
theorem enabled_after_pass (defaults : Defaults) (zone : String) (start before after : Holding)
    (passes : List Pass) (last : Pass) (unmarked : start.signed = false)
    (unkeyed : start.ring.keys = []) (course : Course defaults zone start passes before)
    (checks : Checks defaults zone before last after) (unfailing : last.Unfailing) :
    ((last.instant.addMillis zoneKeyLifetime).Representable →
      (last.instant.addMillis (activationDelay defaults)).Representable →
        ¬Refuses (.createKey zone newZoneSigningKey) (made passes) →
          Enabled zone (made passes ++ last.exchanges) after) ∧
    (Refuses (.createKey zone newZoneSigningKey) (made passes) →
      after = before ∧ last.result = .error .inconsistent ∧
        ∃ anchor, Anchored after.ring anchor) := by
  have begins : Stage zone [] start := .unsigned unmarked unkeyed not_refuses_nil rfl
  have stage := stage_of_course begins course
  rw [List.nil_append] at stage
  constructor
  · intro expiry activation whole
    obtain ⟨marks, tagged⟩ : after.signed = true ∧ Tagged after := by
      cases stage with
      | unsigned unmarked =>
        exact tagged_of_enabling expiry unfailing ((checks_iff_enabling unmarked).mp checks)
      | halved _ _ cut => exact absurd cut whole
      | keyed marked =>
        exact ⟨(marked_of_checks marked checks).marked,
          tagged_of_advance expiry activation (advance_of_checks marked checks unfailing)⟩
    cases stage_of_checks stage checks with
    | unsigned unmarked => exact absurd (unmarked.symm.trans marks) Bool.false_ne_true
    | halved _ _ cut =>
      exact absurd (refuses_append.mp cut) (not_or.mpr ⟨whole, not_refuses_of_settled unfailing⟩)
    | keyed marked _ described => exact ⟨marked, tagged, described⟩
  · intro cut
    cases stage with
    | unsigned _ _ whole | keyed _ whole => exact absurd cut whole
    | halved marked anchored =>
      obtain ⟨rfl, ⟨error, calls, _⟩ | ⟨_, inconsistent⟩⟩ :=
        (checks_iff_anchored anchored marked).mp checks
      · rw [Pass.Unfailing, calls] at unfailing
        exact absurd unfailing not_settled_refused
      · exact ⟨rfl, inconsistent, _, anchored⟩

end Courses

/-! ### A zone that is left without its zone signing key, and one that is not -/

/-- An unsigned zone without keys. -/
def exampleBare : Holding := ⟨⟨[], []⟩, false, some ""⟩

/-- The keys of the test zone as they are stored. -/
def exampleAnchor : SigningKey := { newKeySigningKey with id := some 1, ds := [] }

def exampleSigner : SigningKey := { newZoneSigningKey with id := some 2, ds := [] }

/-- The test zone with a key signing key only. -/
def exampleHalved : Holding := ⟨⟨[exampleAnchor], [1]⟩, true, some ""⟩

/-- The test zone with both keys. -/
def exampleKeyed : Holding := ⟨⟨[exampleAnchor, exampleSigner], [2, 1]⟩, true, some ""⟩

def exampleTagged : Holding :=
  { exampleKeyed with account := (signingSettings (.ofMillis 0)).account }

/-- The key signing key cannot be created. -/
def exampleUnkeyed : Pass where
  instant := .ofMillis 0
  exchanges := [refused (.createKey "test." newKeySigningKey) (.transport "create_cryptokey")]
  result := .error (.backend (.transport "create_cryptokey"))

/-- The zone signing key cannot be created. -/
def exampleHalving : Pass where
  instant := .ofMillis 0
  exchanges := [served (.createKey "test." newKeySigningKey) exampleAnchor,
    refused (.createKey "test." newZoneSigningKey) (.transport "create_cryptokey")]
  result := .error (.backend (.transport "create_cryptokey"))

/-- The tag cannot be stored. -/
def exampleUndone : Pass where
  instant := .ofMillis 0
  exchanges := [served (.createKey "test." newKeySigningKey) exampleAnchor,
    served (.createKey "test." newZoneSigningKey) exampleSigner,
    served (.createMetadata "test." signingMetadata) (), clocked (.ofMillis 0),
    refused (.updateZone "test." (signingSettings (.ofMillis 0))) (.transport "update_zone")]
  result := .error (.backend (.transport "update_zone"))

/-- A pass over the zone with a key signing key only in which no call fails. -/
def exampleLacking : Pass where
  instant := .ofMillis 0
  exchanges := [served (.listKeys "test.") [exampleAnchor]]
  result := .error .inconsistent

/-- The metadata cannot be created. -/
def exampleUndescribed : Pass where
  instant := .ofMillis 0
  exchanges := [served (.createKey "test." newKeySigningKey) exampleAnchor,
    served (.createKey "test." newZoneSigningKey) exampleSigner,
    refused (.createMetadata "test." signingMetadata) (.transport "create_metadata")]
  result := .error (.backend (.transport "create_metadata"))

/-- A pass over the zone with both keys in which no call fails. -/
def exampleTagging : Pass :=
  examplePass (.ofMillis 0) exampleKeyed
    [served (.updateZone "test." ⟨exampleTagged.account, none⟩) ()] (.ok ())

/-- A pass over the zone that has its tag. -/
def exampleWaiting : Pass :=
  examplePass (.ofMillis 0) exampleTagged [] (.ok ())

theorem anchored_exampleBare :
    Takes "test." (.createKey "test." newKeySigningKey) exampleAnchor exampleBare.ring
      exampleHalved.ring :=
  .created [] [] [] newKeySigningKey 1 [] (by decide)

theorem signing_exampleHalved :
    Takes "test." (.createKey "test." newZoneSigningKey) exampleSigner exampleHalved.ring
      exampleKeyed.ring :=
  .created [exampleAnchor] [] [1] newZoneSigningKey 2 [] (by decide)

theorem marked_exampleKeyed : Marked exampleKeyed :=
  ⟨rfl, signed_of_anchored (anchored_of_created rfl anchored_exampleBare) signing_exampleHalved⟩

theorem checks_exampleTagging :
    Checks exampleDefaults "test." exampleKeyed exampleTagging exampleTagged :=
  (checks_iff marked_exampleKeyed).mpr (Or.inr ⟨_, exampleSigner, _, ⟨.refl _, rfl⟩, rfl,
    .tracked rfl .stored⟩)

/-- A zone that never gets a zone signing key, and one that never gets its metadata. Neither could
be created at first, and passes in which no call fails do not make up for that. -/
theorem unfinished_exampleBare :
    exampleBare.signed = false ∧ exampleBare.ring.keys = [] ∧
      (Course exampleDefaults "test." exampleBare [exampleHalving, exampleLacking, exampleLacking]
          exampleHalved ∧
        exampleLacking.Unfailing ∧ exampleLacking.result = .error .inconsistent ∧
        ¬∃ key ∈ exampleHalved.ring.keys, key.active = true ∧ key.role = .zoneSigning) ∧
      (Course exampleDefaults "test." exampleBare
          [exampleUndescribed, exampleTagging, exampleWaiting] exampleTagged ∧
        exampleTagging.Unfailing ∧ exampleWaiting.Unfailing ∧
        (made [exampleUndescribed, exampleTagging, exampleWaiting]).flatMap
          (addedValues "test." "SOA-EDIT") = []) := by
  have halving : Checks exampleDefaults "test." exampleBare exampleHalving exampleHalved :=
    (checks_iff_enabling rfl).mpr (.halved anchored_exampleBare _)
  have anchored := anchored_of_created rfl anchored_exampleBare
  have lacking : Checks exampleDefaults "test." exampleHalved exampleLacking exampleHalved :=
    (checks_iff_anchored anchored rfl).mpr ⟨rfl, Or.inr ⟨rfl, rfl⟩⟩
  have undescribed : Checks exampleDefaults "test." exampleBare exampleUndescribed exampleKeyed :=
    (checks_iff_enabling rfl).mpr
      (.keyed anchored_exampleBare signing_exampleHalved (.undescribed _))
  have waiting : Checks exampleDefaults "test." exampleTagged exampleWaiting exampleTagged :=
    (checks_iff (marked_of_checks marked_exampleKeyed checks_exampleTagging)).mpr
      (Or.inr ⟨_, exampleSigner, _, ⟨.refl _, rfl⟩, rfl,
        .waiting _ (Or.inl (Rotation.ofAccount_expiring (by decide))) (by decide)⟩)
  have whole : Settled [] := settled_nil
  exact ⟨rfl, rfl,
    ⟨.cons halving (.cons lacking (.cons lacking (.nil _))), settled_served.mpr whole, rfl,
      by decide⟩,
    .cons undescribed (.cons checks_exampleTagging (.cons waiting (.nil _))),
    settled_opening.mpr (settled_served.mpr whole), settled_opening.mpr whole, rfl⟩

/-- A zone that is signed after all. First the key signing key cannot be created, then the tag
cannot be stored, and then no call fails. -/
theorem enabled_exampleBare :
    Course exampleDefaults "test." exampleBare [exampleUnkeyed, exampleUndone] exampleKeyed ∧
      Checks exampleDefaults "test." exampleKeyed exampleTagging exampleTagged ∧
      Enabled "test." (made [exampleUnkeyed, exampleUndone] ++ exampleTagging.exchanges)
        exampleTagged := by
  have course : Course exampleDefaults "test." exampleBare [exampleUnkeyed, exampleUndone]
      exampleKeyed :=
    .cons ((checks_iff_enabling rfl).mpr (.unkeyed _))
      (.cons ((checks_iff_enabling rfl).mpr
        (.keyed anchored_exampleBare signing_exampleHalved (.untagged _))) (.nil _))
  have whole : ¬Refuses (.createKey "test." newZoneSigningKey)
      (made [exampleUnkeyed, exampleUndone]) := by
    refine not_refuses_cons (fun same => ?_) (mt refuses_served.mp (mt refuses_served.mp
      (not_refuses_cons nofun (not_refuses_cons nofun (not_refuses_cons nofun not_refuses_nil)))))
    cases same
  obtain ⟨enabled, _⟩ := enabled_after_pass exampleDefaults "test." exampleBare exampleKeyed
    exampleTagged [exampleUnkeyed, exampleUndone] exampleTagging rfl rfl course
    checks_exampleTagging
    (settled_opening.mpr (settled_served.mpr settled_nil))
  exact ⟨course, checks_exampleTagging, enabled (by decide) (by decide) whole⟩

end Zonecast.Upkeep
