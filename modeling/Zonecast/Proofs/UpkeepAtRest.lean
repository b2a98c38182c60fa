/-
Upkeep puts a zone in order in one pass. Each check either finds what it looks for or sends it, and
what it has sent is what it looks for. So if no call fails, then after a pass the apex has the SOA
and the NS set that it is expected to have, the transfer key is there, and the zone is signed and
its account names the time of the next rotation.

What a pass finds is left open but for the apex, where each of the two sets that are checked may be
there once at most: any keys, any account and any metadata. Only if a signed zone lacks an active
key of either role its account need not be a tag; each pass says so and does nothing about it.
-/
import Zonecast.Proofs.Estates

namespace Zonecast.Upkeep

open Process Zone

/-! ### Passes in which no call fails -/

/-- Whether a call looks for something that need not be there. -/
def isLookup : Backend.Call → Bool
  | .getTransferKey _ | .getMetadata _ _ => true
  | _ => false

/-- Whether a call has not failed. That a lookup finds nothing is no failure. -/
def succeeded : Exchange Upkeep → Bool
  | ⟨.backend request, .error error⟩ => isLookup request && error.isNotFound
  | _ => true

/-- No call has failed. -/
def Flawless (exchanges : List (Exchange Upkeep)) : Prop :=
  ∀ exchange ∈ exchanges, succeeded exchange = true

instance (exchanges : List (Exchange Upkeep)) : Decidable (Flawless exchanges) :=
  inferInstanceAs (Decidable (∀ exchange ∈ exchanges, succeeded exchange = true))

/-- The times that the clock has shown. -/
def readings (exchanges : List (Exchange Upkeep)) : List Instant :=
  exchanges.filterMap fun
    | ⟨.now, instant⟩ => some instant
    | _ => none

/-- The times that were tagged can be held by an instant. -/
structure Readable (defaults : Defaults) (zone : String) (exchanges : List (Exchange Upkeep)) :
    Prop where
  expiry : ∀ instant ∈ readings exchanges, ∀ rectify, served (.updateZone zone
      ⟨some (Rotation.expiring (instant.addMillis zoneKeyLifetime)).toAccount, rectify⟩) () ∈
        exchanges → (instant.addMillis zoneKeyLifetime).Representable
  activation : ∀ instant ∈ readings exchanges, ∀ rectify, served (.updateZone zone
      ⟨some (Rotation.activating (instant.addMillis (activationDelay defaults))).toAccount,
        rectify⟩) () ∈ exchanges → (instant.addMillis (activationDelay defaults)).Representable

/-- A pass over a zone as it was just read, to its end, in which no call failed. -/
structure Upkept (defaults : Defaults) (before : Estate) (exchanges : List (Exchange Upkeep))
    (after : Estate) : Prop where
  runs : Runs (pass defaults before.zone) exchanges ()
  proceeds : Proceeds Meets (pass defaults before.zone) before exchanges after
  flawless : Flawless exchanges
  readable : Readable defaults before.zone.id exchanges

theorem mem_readings {instant : Instant} {exchanges : List (Exchange Upkeep)}
    (member : clocked instant ∈ exchanges) : instant ∈ readings exchanges :=
  List.mem_filterMap.mpr ⟨_, member, rfl⟩

/-! ### Rest -/

/-- A zone has an active key of each role. -/
def Paired (ring : Keyring) : Prop :=
  (∃ key ∈ ring.keys, key.active = true ∧ key.role = .keySigning) ∧
    ∃ key ∈ ring.keys, key.active = true ∧ key.role = .zoneSigning

/-- A zone that has its sets at the apex and its transfer key. -/
structure Equipped (defaults : Defaults) (held : Estate) : Prop where
  furnished : Furnished defaults held.zone
  transferKey : defaults.transferKeys = true → transferKeyName held.zone.name ∈ held.transferKeys

/-- A zone that the check of the signing keys leaves alone until the time of its tag. -/
structure Rests (held : Estate) : Prop where
  marked : held.zone.signed = true
  tagged : Tagged held.holding ∨ ¬Paired held.ring

/-- A zone that upkeep leaves alone until the time of its tag. -/
structure AtRest (defaults : Defaults) (held : Estate) : Prop extends Equipped defaults held where
  signing : defaults.signing = true → Rests held

/-- A zone was read like this, as far as its record sets do not matter. -/
structure Fresh (reading : Detail) (held : Estate) : Prop
    extends Read held.zone.id held.holding reading where
  name : reading.name = held.zone.name

section Calls

variable {defaults : Defaults} {reading : Detail} {request : Backend.Call}
  {value : Backend.Value request} {held after : Estate}

/-- A call that is neither about the keys nor about the account leaves the signing of a zone as it
is. -/
theorem Fresh.aside (fresh : Fresh reading held) (obeys : Obeys request value held after)
    (apart : concernsKeys held.zone.id request = false)
    (signed : ∀ signed, signedAfter held.zone.id request signed = signed)
    (account : ∀ account, accountAfter held.zone.id request account = account) :
    Fresh reading after := by
  have same : after.holding = held.holding :=
    (serves_aside apart signed account).mp obeys.signing
  refine ⟨⟨fresh.id.trans obeys.id.symm, ?_, ?_⟩, fresh.name.trans obeys.name.symm⟩
  · rw [same, fresh.signed]
  · rw [same, fresh.account]

/-- A zone rests once its account is a tag. -/
theorem Obeys.rests {zone account : String} {rectify : Option Bool} {value : Unit} {since : Instant}
    (own : zone = held.zone.id) (obeys : Obeys (.updateZone zone ⟨some account, rectify⟩) value held
      after) (names : Names (some account) since) (marked : held.zone.signed = true) :
    Rests after := by
  subst own
  have holding := serves_updateZone.mp obeys.signing
  have stored : after.holding.account = some account := congrArg Holding.account holding
  exact ⟨obeys.marked marked, Or.inl ⟨since, stored ▸ names⟩⟩

theorem Rests.congr (rests : Rests held) (same : after.holding = held.holding) : Rests after := by
  have ring : after.ring = held.ring := congrArg Holding.ring same
  have signed : after.zone.signed = held.zone.signed := congrArg Holding.signed same
  exact ⟨signed.trans rests.marked, by rw [same, ring]; exact rests.tagged⟩

/-- A call that patches nothing leaves a zone equipped. -/
theorem equipped_of_meets {request : Call} {reply : Zonecast.Upkeep.Reply request}
    (unpatching : Unpatching request) (meets : Meets request reply held after)
    (equipped : Equipped defaults held) : Equipped defaults after := by
  refine ⟨furnished_of_meets unpatching meets equipped.furnished, fun enabled => ?_⟩
  have present := mem_transferKeys_of_meets meets (equipped.transferKey enabled)
  have named : after.zone.name = held.zone.name := by
    cases meets with
    | served obeys => exact obeys.name
    | refused | read | countedFailure | countedRectifyFailure => rfl
  rwa [named]

end Calls

/-! ### The first pass -/

section First

variable {defaults : Defaults} {reading : Detail} {held : Estate}
  {whole : List (Exchange Upkeep)}

section Rules

variable {α : Type} {request : Backend.Call} {good : Except Error α → Estate → Prop}

/-- Where no call fails, only lookups do, and only to say that there is nothing. -/
theorem lookup_of_refused (flawless : Flawless whole)
    {error : Backend.Error} (member : refused request error ∈ whole) :
    isLookup request = true ∧ error.isNotFound = true :=
  Bool.and_eq_true_iff.mp (flawless _ member)

theorem yields_ask_bind (flawless : Flawless whole) (must : isLookup request = false)
    {next : Backend.Value request → Step α}
    (rest : ∀ value after, served request value ∈ whole → Obeys request value held after →
      (next value).run.Yields (I := Upkeep) (Within whole Meets) good after) :
    (ask request >>= next).run.Yields (I := Upkeep) (Within whole Meets) good held := by
  rw [run_ask_bind]
  rintro reply after ⟨member, met⟩
  cases met with
  | served obeys => exact rest _ after member obeys
  | refused =>
    exact absurd (lookup_of_refused flawless member).1 (ne_true_of_eq_false must)

theorem yields_ask (flawless : Flawless whole) (must : isLookup request = false)
    {good : Except Error (Backend.Value request) → Estate → Prop}
    (rest : ∀ value after, served request value ∈ whole → Obeys request value held after →
      good (.ok value) after) :
    (ask request).run.Yields (I := Upkeep) (Within whole Meets) good held := by
  rintro reply after ⟨member, met⟩
  cases met with
  | served obeys => exact rest _ after member obeys
  | refused =>
    exact absurd (lookup_of_refused flawless member).1 (ne_true_of_eq_false must)

/-- A backend call whose failure the check looks at. -/
theorem yields_attempt_bind {next : Except Backend.Error (Backend.Value request) → Step α}
    (succeeds : ∀ value after, Obeys request value held after →
      (next (.ok value)).run.Yields (I := Upkeep) (Within whole Meets) good after)
    (fails : ∀ error, refused request error ∈ whole →
      (next (.error error)).run.Yields (I := Upkeep) (Within whole Meets) good held) :
    (attempt request >>= next).run.Yields (I := Upkeep) (Within whole Meets) good held := by
  rintro reply after ⟨member, met⟩
  cases met with
  | served obeys => exact succeeds _ after obeys
  | refused _ _ error => exact fails error member

/-- A lookup that may find nothing. -/
theorem yields_attempt_lookup {good : Estate → Prop}
    {next : Except Backend.Error (Backend.Value request) → Step Unit}
    (present : ∀ value, next (.ok value) = pure ())
    (failed : ∀ error, next (.error error) =
      if error.isNotFound then pure () else throw (.backend error))
    (stays : ∀ value after, Obeys request value held after → good after) (holds : good held) :
    (attempt request >>= next).run.Yields (I := Upkeep) (Within whole Meets) (fun _ => good)
      held := by
  have ends := done_of_lookup present failed
  refine yields_attempt_bind (fun value after obeys => ?_) fun error _ => ?_
  · obtain ⟨result, done⟩ := ends (.ok value)
    rw [done]
    exact stays value after obeys
  · obtain ⟨result, done⟩ := ends (.error error)
    rw [done]
    exact holds

theorem yields_now_bind {next : Instant → Step α}
    (rest : ∀ instant ∈ readings whole,
      (next instant).run.Yields (I := Upkeep) (Within whole Meets) good held) :
    (now >>= next).run.Yields (I := Upkeep) (Within whole Meets) good held := by
  rintro reply after ⟨member, met⟩
  cases met
  exact rest reply (mem_readings member)

/-- A check whose failure is counted leaves a zone like the check itself. -/
theorem yields_settle (check : Check) {step : Step Unit} {good : Estate → Prop}
    (yields : step.run.Yields (I := Upkeep) (Within whole Meets) (fun _ => good) held) :
    (settle check step).Yields (I := Upkeep) (Within whole Meets) (fun _ => good) held := by
  refine yields_bind.mpr (yields.mono fun result after holds => ?_)
  cases result with
  | ok => exact holds
  | error =>
    rintro _ _ ⟨_, met⟩
    cases met
    exact holds

end Rules

/-- The first check leaves a valid SOA. -/
theorem yields_checkAuthority (flawless : Flawless whole)
    (one : Single held.zone.name "SOA" held.zone.recordSets)
    (other : Single held.zone.name "NS" held.zone.recordSets) :
    (checkAuthority defaults held.zone).run.Yields (I := Upkeep) (Within whole Meets)
      (fun _ after => Underway defaults held.zone after.zone ∧ Fresh held.zone after) held := by
  have fresh : Fresh held.zone held := ⟨⟨rfl, rfl, rfl⟩, rfl⟩
  cases valid : authorityIsValid defaults held.zone with
  | true =>
    rw [checkAuthority_of_valid valid]
    exact ⟨⟨rfl, one, other, valid, rfl⟩, fresh⟩
  | false =>
    rw [checkAuthority_of_invalid valid]
    exact yields_ask flawless rfl fun _ after _ obeys =>
      ⟨underway_of_stores obeys.name other (obeys.stores rfl),
        fresh.aside obeys rfl (fun _ => rfl) fun _ => rfl⟩

/-- The second check leaves both sets valid. -/
theorem yields_checkNameservers (flawless : Flawless whole)
    (underway : Underway defaults reading held.zone) (fresh : Fresh reading held) :
    (checkNameservers defaults reading).run.Yields (I := Upkeep) (Within whole Meets)
      (fun _ after => Furnished defaults after.zone ∧ Fresh reading after) held := by
  cases valid : nameserversAreValid defaults reading with
  | true =>
    rw [checkNameservers_of_valid valid]
    exact ⟨underway.furnished valid, fresh⟩
  | false =>
    rw [checkNameservers_of_invalid valid, fresh.name]
    exact yields_ask flawless rfl fun _ after _ obeys =>
      ⟨underway.furnished_of_stores obeys.name (obeys.stores fresh.id),
        fresh.aside obeys rfl (fun _ => rfl) fun _ => rfl⟩

/-- The third check leaves the zone with its transfer key. -/
theorem yields_checkTransferKey (flawless : Flawless whole) (fresh : Fresh reading held) :
    (checkTransferKey reading).run.Yields (I := Upkeep) (Within whole Meets)
      (fun _ after => transferKeyName reading.name ∈ after.transferKeys ∧ Fresh reading after)
      held := by
  have looks : ∀ held value after, transferKeyName reading.name ∈ held.transferKeys →
      Fresh reading held → Obeys (.getMetadata reading.id transferKeysKind) value held after →
      transferKeyName reading.name ∈ after.transferKeys ∧ Fresh reading after :=
    fun _ _ _ present fresh obeys => ⟨(obeys.transferKeys _).mpr (Or.inl present),
      fresh.aside obeys rfl (fun _ => rfl) fun _ => rfl⟩
  refine yields_attempt_bind (fun value after obeys => ?_) fun error member => ?_
  · have present := (obeys.transferKeys _).mpr (Or.inl (obeys.found _ rfl))
    have still : Fresh reading after := fresh.aside obeys rfl (fun _ => rfl) fun _ => rfl
    exact yields_attempt_lookup (fun _ => rfl) (fun _ => rfl)
      (fun value last => looks after value last present still) ⟨present, still⟩
  · dsimp only
    rw [(lookup_of_refused flawless member).2]
    refine yields_ask_bind flawless rfl fun value after _ obeys => ?_
    have present := (obeys.transferKeys _).mpr (Or.inr rfl)
    have still : Fresh reading after := fresh.aside obeys rfl (fun _ => rfl) fun _ => rfl
    exact yields_attempt_lookup (fun _ => rfl) (fun _ => rfl)
      (fun value last => looks after value last present still) ⟨present, still⟩

/-- A rotation state that is recorded is one that can be read back. -/
theorem yields_recordRotation (flawless : Flawless whole) {state : Rotation}
    (own : reading.id = held.zone.id) (marked : held.zone.signed = true)
    (names : served (.updateZone reading.id ⟨some state.toAccount, none⟩) () ∈ whole →
      ∃ since, Names (some state.toAccount) since) :
    (recordRotation reading state none).run.Yields (I := Upkeep) (Within whole Meets)
      (fun _ => Rests) held := by
  refine yields_ask flawless rfl fun _ after member obeys => ?_
  obtain ⟨since, tagged⟩ := names member
  exact obeys.rests own tagged marked

/-- What the state of a signed zone calls for leaves it at rest. -/
theorem yields_rotate (flawless : Flawless whole) (readable : Readable defaults reading.id whole)
    (fresh : Fresh reading held) (marked : held.zone.signed = true) {instant : Instant}
    (shown : instant ∈ readings whole) (keys : List SigningKey) (active : SigningKey) :
    (rotate defaults reading keys active instant).run.Yields (I := Upkeep) (Within whole Meets)
      (fun _ => Rests) held := by
  have expiring : served (.updateZone reading.id
      ⟨some (Rotation.expiring (instant.addMillis zoneKeyLifetime)).toAccount, none⟩) () ∈ whole →
      ∃ since, Names (some (Rotation.expiring (instant.addMillis zoneKeyLifetime)).toAccount)
        since :=
    fun member => ⟨_, Or.inl (Rotation.ofAccount_expiring (readable.expiry _ shown _ member))⟩
  have waits : ∀ since, Names reading.account since → Rests held :=
    fun since names => ⟨marked, Or.inl ⟨since, fresh.account ▸ names⟩⟩
  cases state : Rotation.ofAccount reading.account with
  | untracked =>
    rw [rotate_untracked state]
    exact yields_recordRotation flawless fresh.id marked expiring
  | expiring since =>
    cases due : since.le instant with
    | false =>
      rw [rotate_waiting (Or.inl state) due]
      exact waits since (Or.inl state)
    | true =>
      rw [rotate_expiring state due]
      refine yields_ask_bind flawless rfl fun _ after _ obeys => ?_
      exact yields_recordRotation flawless (fresh.id.trans obeys.id.symm) (obeys.marked marked)
        fun member =>
          ⟨_, Or.inr (Rotation.ofAccount_activating (readable.activation _ shown _ member))⟩
  | activating since =>
    cases due : since.le instant with
    | false =>
      rw [rotate_waiting (Or.inr state) due]
      exact waits since (Or.inr state)
    | true =>
      rw [rotate_activating state due]
      unfold finishRollover
      dsimp only
      split
      · refine yields_ask_bind flawless rfl fun _ middle _ switches => ?_
        refine yields_ask_bind flawless rfl fun _ after _ deletes => ?_
        exact yields_recordRotation flawless
          (fresh.id.trans (deletes.id.trans switches.id).symm)
          (deletes.marked (switches.marked marked)) expiring
      · exact waits since (Or.inr state)

/-- An unsigned zone is signed and tagged. -/
theorem yields_enableSigning (flawless : Flawless whole)
    (readable : Readable defaults reading.id whole) (own : reading.id = held.zone.id) :
    (enableSigning reading).run.Yields (I := Upkeep) (Within whole Meets) (fun _ => Rests)
      held := by
  rw [enableSigning_eq]
  refine yields_ask_bind flawless rfl fun _ anchored _ anchors => ?_
  refine yields_ask_bind flawless rfl fun _ signed _ signs => ?_
  refine yields_ask_bind flawless rfl fun _ described _ describes => ?_
  refine yields_now_bind fun instant shown => ?_
  refine yields_ask_bind flawless rfl fun _ tagged member tags => ?_
  have still : reading.id = described.zone.id :=
    own.trans ((describes.id.trans signs.id).trans anchors.id).symm
  have rests : Rests tagged := tags.rests still
    (Or.inl (Rotation.ofAccount_expiring (readable.expiry _ shown _ member)))
    (describes.marked (signs.marked (anchors.marks own)))
  refine yields_attempt_bind (fun _ after obeys => ?_) fun error refuses => ?_
  · exact rests.congr ((serves_aside rfl (fun _ => rfl) fun _ => rfl).mp obeys.signing)
  · exact absurd (lookup_of_refused flawless refuses).1 Bool.false_ne_true

/-- The last check leaves a zone at rest. -/
theorem yields_checkSigning (flawless : Flawless whole)
    (readable : Readable defaults reading.id whole) (fresh : Fresh reading held) :
    (checkSigning defaults reading).run.Yields (I := Upkeep) (Within whole Meets)
      (fun _ => Rests) held := by
  cases marked : reading.signed with
  | false =>
    rw [checkSigning, marked]
    exact yields_enableSigning flawless readable fresh.id
  | true =>
    rw [checkSigning_of_signed marked]
    refine yields_ask_bind flawless rfl fun keys after _ obeys => ?_
    obtain ⟨same, unmoved⟩ := serves_listKeys.mp (fresh.id ▸ obeys.signing)
    have still : Fresh reading after := by
      refine ⟨⟨fresh.id.trans obeys.id.symm, ?_, ?_⟩, fresh.name.trans obeys.name.symm⟩
      · rw [unmoved, fresh.signed]
      · rw [unmoved, fresh.account]
    have signed : after.zone.signed = true := still.signed.symm.trans marked
    unfold checkListed
    split
    · exact yields_now_bind fun instant shown =>
        yields_rotate flawless readable still signed shown keys _
    · rename_i unpaired
      refine ⟨signed, Or.inr fun paired => ?_⟩
      have ring : after.ring = held.ring := congrArg Holding.ring unmoved
      rw [ring] at paired
      obtain ⟨anchor, anchored⟩ := exists_active same paired.1
      obtain ⟨active, signing⟩ := exists_active same paired.2
      exact unpaired anchor active anchored signing

/-- After the third check, if it is enabled, a zone is equipped. -/
theorem yields_transferKey (flawless : Flawless whole) (furnished : Furnished defaults held.zone)
    (fresh : Fresh reading held) :
    (if defaults.transferKeys then settle .transferKey (checkTransferKey reading)
      else .done ()).Yields (I := Upkeep) (Within whole Meets)
        (fun _ after => Equipped defaults after ∧ Fresh reading after) held := by
  cases enabled : defaults.transferKeys with
  | false => exact ⟨⟨furnished, fun is => absurd (enabled.symm.trans is) Bool.false_ne_true⟩, fresh⟩
  | true =>
    have keeps : ∀ request reply before after, Unpatching request →
        Within whole Meets request reply before after → Furnished defaults before.zone →
        Furnished defaults after.zone :=
      fun _ _ _ _ unpatching met => furnished_of_meets unpatching met.2
    have yields := (yields_settle .transferKey (yields_checkTransferKey flawless fresh)).keep
      (only_settle trivial unpatching_checkTransferKey) keeps furnished
    refine yields.mono fun _ after holds => ?_
    obtain ⟨⟨present, still⟩, whole⟩ := holds
    exact ⟨⟨whole, fun _ => still.name ▸ present⟩, still⟩

/-- After the last check, if it is enabled, a zone is at rest. -/
theorem yields_signing (flawless : Flawless whole)
    (readable : Readable defaults reading.id whole) (equipped : Equipped defaults held)
    (fresh : Fresh reading held) :
    (if defaults.signing then settle .signing (checkSigning defaults reading)
      else .done ()).Yields (I := Upkeep) (Within whole Meets) (fun _ => AtRest defaults)
        held := by
  cases enabled : defaults.signing with
  | false => exact ⟨equipped, fun is => absurd (enabled.symm.trans is) Bool.false_ne_true⟩
  | true =>
    have yields := (yields_settle .signing (yields_checkSigning flawless readable fresh)).keep
      (only_settle trivial unpatching_checkSigning)
      (fun _ _ _ _ unpatching met => equipped_of_meets unpatching met.2) equipped
    exact yields.mono fun _ after holds => ⟨holds.2, fun _ => holds.1⟩

/-- A pass in which no call fails leaves a zone at rest. -/
theorem atRest_of_upkept {before after : Estate} {exchanges : List (Exchange Upkeep)}
    (one : Single before.zone.name "SOA" before.zone.recordSets)
    (other : Single before.zone.name "NS" before.zone.recordSets)
    (upkept : Upkept defaults before exchanges after) : AtRest defaults after := by
  have yields : (pass defaults before.zone).Yields (I := Upkeep) (Within exchanges Meets)
      (fun _ => AtRest defaults) before := by
    rw [pass_eq]
    refine yields_bind.mpr
      ((yields_settle _ (yields_checkAuthority upkept.flawless one other)).mono ?_)
    rintro _ _ ⟨underway, fresh⟩
    refine yields_bind.mpr
      ((yields_settle _ (yields_checkNameservers upkept.flawless underway fresh)).mono ?_)
    rintro _ _ ⟨furnished, fresh⟩
    refine yields_bind.mpr ((yields_transferKey upkept.flawless furnished fresh).mono ?_)
    rintro _ _ ⟨equipped, fresh⟩
    exact yields_signing upkept.flawless upkept.readable equipped fresh
  exact yields.of_runs upkept.runs upkept.proceeds.within

end First

end Zonecast.Upkeep
