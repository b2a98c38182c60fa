/-
What one pass over a signed zone can come to. It lists the keys and reads the clock; what it then
does depends on the rotation state of the zone and on whether its time has come. Each turn is said
with all of its calls, what it makes of the zone and its result, for every call at which it may be
cut short. There is nothing else a pass can do, and each of these turns can happen.
-/
import Zonecast.Proofs.SigningPasses

namespace Zonecast.Upkeep

open Process Zone

/-! ### Turns -/

/-- The account is a tag with this time. -/
def Names (account : Option String) (since : Instant) : Prop :=
  Rotation.ofAccount account = .expiring since ∨ Rotation.ofAccount account = .activating since

theorem Names.unique {account : Option String} {since other : Instant}
    (names : Names account since) (same : Names account other) : since = other := by
  rcases names with state | state <;> rcases same with named | named <;>
    cases state.symm.trans named <;> rfl

/-- The first key of a list that is a zone signing key, active or not. -/
def zoneSigningKey? (keys : List SigningKey) (active : Bool) : Option SigningKey :=
  keys.find? fun key => key.active == active && key.role == .zoneSigning

theorem zoneSigningKey?_true (keys : List SigningKey) :
    zoneSigningKey? keys true = keys.find? fun key => key.active && key.role == .zoneSigning := by
  unfold zoneSigningKey?
  congr 1
  funext key
  rw [beq_true]

theorem zoneSigningKey?_false (keys : List SigningKey) :
    zoneSigningKey? keys false = keys.find? fun key => !key.active && key.role == .zoneSigning := by
  unfold zoneSigningKey?
  congr 1
  funext key
  rw [beq_false]

/-- The keys of a zone as they are listed, with the active zone signing key that comes first. -/
structure Listing (ring : Keyring) (keys : List SigningKey) (active : SigningKey) : Prop where
  same : keys.Perm ring.keys
  first : zoneSigningKey? keys true = some active

/-- The last call of a pass that has a rotation state to record, the account that it leaves and the
result. -/
inductive Records (zone : String) (state : Rotation) (account : Option String) :
    List (Exchange Upkeep) → Option String → Except Error Unit → Prop
  | stored : Records zone state account
      [served (.updateZone zone ⟨some state.toAccount, none⟩) ()] (some state.toAccount) (.ok ())
  | failed (error : Backend.Error) : Records zone state account
      [refused (.updateZone zone ⟨some state.toAccount, none⟩) error] account
      (.error (.backend error))

/-- What a pass comes to once it knows the keys and the time. -/
inductive Turn (defaults : Defaults) (zone : String) (instant : Instant) (before : Holding)
    (keys : List SigningKey) (active : SigningKey) :
    List (Exchange Upkeep) → Holding → Except Error Unit → Prop
  /-- A zone without a recognised tag is tagged. -/
  | tracked {exchanges : List (Exchange Upkeep)} {account : Option String}
      {result : Except Error Unit} (state : Rotation.ofAccount before.account = .untracked)
      (records : Records zone (.expiring (instant.addMillis zoneKeyLifetime)) before.account
        exchanges account result) :
    Turn defaults zone instant before keys active exchanges { before with account } result
  | waiting (since : Instant) (names : Names before.account since)
      (early : since.le instant = false) :
    Turn defaults zone instant before keys active [] before (.ok ())
  | unpublished (since : Instant) (state : Rotation.ofAccount before.account = .expiring since)
      (due : since.le instant = true) (error : Backend.Error) :
    Turn defaults zone instant before keys active [refused (.createKey zone successorKey) error]
      before (.error (.backend error))
  | published (since : Instant) (state : Rotation.ofAccount before.account = .expiring since)
      (due : since.le instant = true) {stored : SigningKey} {ring : Keyring}
      (created : Takes zone (.createKey zone successorKey) stored before.ring ring)
      {exchanges : List (Exchange Upkeep)} {account : Option String} {result : Except Error Unit}
      (records : Records zone (.activating (instant.addMillis (activationDelay defaults)))
        before.account exchanges account result) :
    Turn defaults zone instant before keys active
      (served (.createKey zone successorKey) stored :: exchanges) ⟨ring, true, account⟩ result
  /-- There is no key to switch to. -/
  | stranded (since : Instant) (state : Rotation.ofAccount before.account = .activating since)
      (due : since.le instant = true) (none : zoneSigningKey? keys false = none) :
    Turn defaults zone instant before keys active [] before (.error .inconsistent)
  | unactivated (since : Instant) (state : Rotation.ofAccount before.account = .activating since)
      (due : since.le instant = true) {successor : SigningKey} {new old : UInt32}
      (next : zoneSigningKey? keys false = some successor) (newId : successor.id = some new)
      (oldId : active.id = some old) (error : Backend.Error) :
    Turn defaults zone instant before keys active [refused (.setKeyActive zone new true) error]
      before (.error (.backend error))
  | undeleted (since : Instant) (state : Rotation.ofAccount before.account = .activating since)
      (due : since.le instant = true) {successor : SigningKey} {new old : UInt32}
      (next : zoneSigningKey? keys false = some successor) (newId : successor.id = some new)
      (oldId : active.id = some old) (error : Backend.Error) :
    Turn defaults zone instant before keys active
      [served (.setKeyActive zone new true) (), refused (.deleteKey zone old) error]
      { before with ring := before.ring.switching new true } (.error (.backend error))
  | finished (since : Instant) (state : Rotation.ofAccount before.account = .activating since)
      (due : since.le instant = true) {successor : SigningKey} {new old : UInt32}
      (next : zoneSigningKey? keys false = some successor) (newId : successor.id = some new)
      (oldId : active.id = some old) {exchanges : List (Exchange Upkeep)}
      {account : Option String} {result : Except Error Unit}
      (records : Records zone (.expiring (instant.addMillis zoneKeyLifetime)) before.account
        exchanges account result) :
    Turn defaults zone instant before keys active
      (served (.setKeyActive zone new true) () :: served (.deleteKey zone old) () :: exchanges)
      ⟨(before.ring.switching new true).without old, before.signed, account⟩ result

/-! ### Turns and paths -/

section Paths

variable {defaults : Defaults} {zone : String} {instant : Instant} {before after : Holding}
  {keys : List SigningKey} {active : SigningKey} {exchanges : List (Exchange Upkeep)}
  {result : Except Error Unit} {reading : Detail}

theorem path_recordRotation (fresh : reading.id = zone) (state : Rotation) :
    Path zone instant (recordRotation reading state none).run before exchanges after result ↔
      ∃ account, Records zone state before.account exchanges account result ∧
        after = { before with account } := by
  subst fresh
  unfold recordRotation
  refine path_ask.trans ⟨?_, ?_⟩
  · rintro (⟨error, rfl, rfl, rfl⟩ | ⟨value, rfl, serves, rfl⟩)
    · exact ⟨_, .failed error, rfl⟩
    · exact ⟨_, .stored, serves_updateZone.mp serves⟩
  · rintro ⟨account, records, rfl⟩
    cases records with
    | stored => exact Or.inr ⟨(), rfl, serves_updateZone.mpr rfl, rfl⟩
    | failed error => exact Or.inl ⟨error, rfl, rfl, rfl⟩

theorem path_beginRollover (fresh : reading.id = zone) :
    Path zone instant (beginRollover defaults reading instant).run before exchanges after result ↔
      (∃ error, exchanges = [refused (.createKey zone successorKey) error] ∧ after = before ∧
        result = .error (.backend error)) ∨
      ∃ stored ring account rest, exchanges = served (.createKey zone successorKey) stored :: rest ∧
        Takes zone (.createKey zone successorKey) stored before.ring ring ∧
        Records zone (.activating (instant.addMillis (activationDelay defaults))) before.account
          rest account result ∧ after = ⟨ring, true, account⟩ := by
  subst fresh
  unfold beginRollover
  refine path_ask_bind.trans (or_congr_right ⟨?_, ?_⟩)
  · rintro ⟨stored, middle, rest, rfl, serves, onwards⟩
    obtain ⟨ring, created, rfl⟩ := serves_createKey.mp serves
    obtain ⟨account, records, rfl⟩ := (path_recordRotation rfl _).mp onwards
    exact ⟨stored, ring, account, rest, rfl, created, records, rfl⟩
  · rintro ⟨stored, ring, account, rest, rfl, created, records, rfl⟩
    exact ⟨stored, _, rest, rfl, serves_createKey.mpr ⟨ring, created, rfl⟩,
      (path_recordRotation rfl _).mpr ⟨account, records, rfl⟩⟩

theorem path_switch (fresh : reading.id = zone) {successor : SigningKey} {new old : UInt32}
    (next : zoneSigningKey? keys false = some successor) (newId : successor.id = some new)
    (oldId : active.id = some old) :
    Path zone instant (finishRollover reading keys active instant).run before exchanges after
        result ↔
      (∃ error, exchanges = [refused (.setKeyActive zone new true) error] ∧ after = before ∧
        result = .error (.backend error)) ∨
      (∃ key ∈ before.ring.keys, key.id = some new) ∧
        ((∃ error, exchanges = [served (.setKeyActive zone new true) (),
            refused (.deleteKey zone old) error] ∧
          after = { before with ring := before.ring.switching new true } ∧
          result = .error (.backend error)) ∨
        ∃ account rest, exchanges = served (.setKeyActive zone new true) () ::
            served (.deleteKey zone old) () :: rest ∧
          Records zone (.expiring (instant.addMillis zoneKeyLifetime)) before.account rest account
            result ∧
          after = ⟨(before.ring.switching new true).without old, before.signed, account⟩) := by
  subst fresh
  have calls : finishRollover reading keys active instant = (do
      ask (.setKeyActive reading.id new true)
      ask (.deleteKey reading.id old)
      recordRotation reading (.expiring (instant.addMillis zoneKeyLifetime)) none) := by
    rw [zoneSigningKey?_false] at next
    unfold finishRollover
    rw [next, oldId]
    dsimp only [Option.bind]
    rw [newId]
  rw [calls]
  refine path_ask_bind.trans (or_congr_right ⟨?_, ?_⟩)
  · rintro ⟨value, middle, rest, rfl, serves, onwards⟩
    obtain ⟨held, rfl⟩ := serves_setKeyActive.mp serves
    refine ⟨held, ?_⟩
    rcases path_ask_bind.mp onwards with
      ⟨error, rfl, rfl, rfl⟩ | ⟨gone, final, last, rfl, deletes, recording⟩
    · exact Or.inl ⟨error, rfl, rfl, rfl⟩
    · obtain rfl := serves_deleteKey.mp deletes
      obtain ⟨account, records, rfl⟩ := (path_recordRotation rfl _).mp recording
      exact Or.inr ⟨account, last, rfl, records, rfl⟩
  · rintro ⟨held, ⟨error, rfl, rfl, rfl⟩ | ⟨account, rest, rfl, records, rfl⟩⟩
    · exact ⟨(), _, _, rfl, serves_setKeyActive.mpr ⟨held, rfl⟩,
        path_ask_bind.mpr (Or.inl ⟨error, rfl, rfl, rfl⟩)⟩
    · exact ⟨(), _, _, rfl, serves_setKeyActive.mpr ⟨held, rfl⟩,
        path_ask_bind.mpr (Or.inr ⟨(), _, rest, rfl, serves_deleteKey.mpr rfl,
          (path_recordRotation rfl _).mpr ⟨account, records, rfl⟩⟩)⟩

/-- There is no way to finish a rollover without a successor. -/
theorem path_stranded (none : zoneSigningKey? keys false = none) :
    Path zone instant (finishRollover reading keys active instant).run before exchanges after
        result ↔
      exchanges = [] ∧ after = before ∧ result = .error .inconsistent := by
  have calls : (finishRollover reading keys active instant).run =
      .done (.error .inconsistent) := by
    rw [zoneSigningKey?_false] at none
    unfold finishRollover
    rw [none]
    rfl
  rw [calls]
  exact path_done

theorem rotate_untracked (state : Rotation.ofAccount reading.account = .untracked) :
    rotate defaults reading keys active instant =
      recordRotation reading (.expiring (instant.addMillis zoneKeyLifetime)) none := by
  rw [rotate, state]

theorem rotate_waiting {since : Instant}
    (names : Names reading.account since) (early : since.le instant = false) :
    rotate defaults reading keys active instant = pure () := by
  rcases names with state | state <;> rw [rotate, state] <;> dsimp only <;> rw [early] <;> rfl

theorem rotate_expiring {since : Instant}
    (state : Rotation.ofAccount reading.account = .expiring since) (due : since.le instant = true) :
    rotate defaults reading keys active instant = beginRollover defaults reading instant := by
  rw [rotate, state]
  exact if_pos due

theorem rotate_activating {since : Instant}
    (state : Rotation.ofAccount reading.account = .activating since)
    (due : since.le instant = true) :
    rotate defaults reading keys active instant = finishRollover reading keys active instant := by
  rw [rotate, state]
  exact if_pos due

/-- A listed zone signing key is one of the zone. -/
theorem held_of_listed {ring : Keyring} (listing : Listing ring keys active) {wanted : Bool}
    {key : SigningKey} (found : zoneSigningKey? keys wanted = some key) :
    key ∈ ring.keys ∧ key.active = wanted ∧ key.role = .zoneSigning := by
  have properties := List.find?_some found
  rw [Bool.and_eq_true, beq_iff_eq, beq_iff_eq] at properties
  exact ⟨listing.same.mem_iff.mp (List.mem_of_find?_eq_some found), properties⟩

theorem number_of_listed {ring : Keyring} (signed : Signed ring)
    (listing : Listing ring keys active) {wanted : Bool} {key : SigningKey}
    (found : zoneSigningKey? keys wanted = some key) : ∃ number, key.id = some number := by
  obtain ⟨number, _, id⟩ := signed.numbered key (held_of_listed listing found).1
  exact ⟨number, id⟩

/-- A pass that knows the keys and the time makes one of the turns. -/
theorem turn_of_path (fresh : Read zone before reading) (signed : Signed before.ring)
    (listing : Listing before.ring keys active)
    (path : Path zone instant (rotate defaults reading keys active instant).run before exchanges
      after result) : Turn defaults zone instant before keys active exchanges after result := by
  cases state : Rotation.ofAccount before.account with
  | untracked =>
    rw [rotate_untracked (fresh.account ▸ state), path_recordRotation fresh.id] at path
    obtain ⟨account, records, rfl⟩ := path
    exact .tracked state records
  | expiring since =>
    cases due : since.le instant with
    | false =>
      rw [rotate_waiting (Or.inl (fresh.account ▸ state)) due] at path
      obtain ⟨rfl, rfl, rfl⟩ := path_done.mp path
      exact .waiting since (Or.inl state) due
    | true =>
      rw [rotate_expiring (fresh.account ▸ state) due, path_beginRollover fresh.id] at path
      rcases path with ⟨error, rfl, rfl, rfl⟩ | ⟨_, _, _, _, rfl, created, records, rfl⟩
      · exact .unpublished since state due error
      · exact .published since state due created records
  | activating since =>
    cases due : since.le instant with
    | false =>
      rw [rotate_waiting (Or.inr (fresh.account ▸ state)) due] at path
      obtain ⟨rfl, rfl, rfl⟩ := path_done.mp path
      exact .waiting since (Or.inr state) due
    | true =>
      rw [rotate_activating (fresh.account ▸ state) due] at path
      obtain ⟨old, oldId⟩ := number_of_listed signed listing listing.first
      cases next : zoneSigningKey? keys false with
      | none =>
        obtain ⟨rfl, rfl, rfl⟩ := (path_stranded next).mp path
        exact .stranded since state due next
      | some successor =>
        obtain ⟨new, newId⟩ := number_of_listed signed listing next
        rw [path_switch fresh.id next newId oldId] at path
        rcases path with ⟨error, rfl, rfl, rfl⟩ |
          ⟨_, ⟨error, rfl, rfl, rfl⟩ | ⟨account, rest, rfl, records, rfl⟩⟩
        · exact .unactivated since state due next newId oldId error
        · exact .undeleted since state due next newId oldId error
        · exact .finished since state due next newId oldId records

/-- Every turn can come of a pass. -/
theorem path_of_turn (fresh : Read zone before reading) (listing : Listing before.ring keys active)
    (turn : Turn defaults zone instant before keys active exchanges after result) :
    Path zone instant (rotate defaults reading keys active instant).run before exchanges after
      result := by
  have heldOf : ∀ {successor : SigningKey} {new : UInt32},
      zoneSigningKey? keys false = some successor → successor.id = some new →
      ∃ key ∈ before.ring.keys, key.id = some new := fun next id =>
    ⟨_, (held_of_listed listing next).1, id⟩
  cases turn with
  | tracked state records =>
    rw [rotate_untracked (fresh.account ▸ state), path_recordRotation fresh.id]
    exact ⟨_, records, rfl⟩
  | waiting since names early =>
    rw [rotate_waiting (fresh.account ▸ names) early]
    exact path_done.mpr ⟨rfl, rfl, rfl⟩
  | unpublished since state due error =>
    rw [rotate_expiring (fresh.account ▸ state) due, path_beginRollover fresh.id]
    exact Or.inl ⟨error, rfl, rfl, rfl⟩
  | published since state due created records =>
    rw [rotate_expiring (fresh.account ▸ state) due, path_beginRollover fresh.id]
    exact Or.inr ⟨_, _, _, _, rfl, created, records, rfl⟩
  | stranded since state due none =>
    rw [rotate_activating (fresh.account ▸ state) due, path_stranded none]
    exact ⟨rfl, rfl, rfl⟩
  | unactivated since state due next newId oldId error =>
    rw [rotate_activating (fresh.account ▸ state) due, path_switch fresh.id next newId oldId]
    exact Or.inl ⟨error, rfl, rfl, rfl⟩
  | undeleted since state due next newId oldId error =>
    rw [rotate_activating (fresh.account ▸ state) due, path_switch fresh.id next newId oldId]
    exact Or.inr ⟨heldOf next newId, Or.inl ⟨error, rfl, rfl, rfl⟩⟩
  | finished since state due next newId oldId records =>
    rw [rotate_activating (fresh.account ▸ state) due, path_switch fresh.id next newId oldId]
    exact Or.inr ⟨heldOf next newId, Or.inr ⟨_, _, rfl, records, rfl⟩⟩

end Paths

/-! ### Checks -/

section Checks

variable {defaults : Defaults} {zone : String} {before after : Holding} {pass : Pass}

/-- The calls by which a pass learns the keys and the time. -/
def opening (zone : String) (keys : List SigningKey) (instant : Instant) :
    List (Exchange Upkeep) :=
  [served (.listKeys zone) keys, clocked instant]

theorem settled_opening {keys : List SigningKey} {instant : Instant}
    {rest : List (Exchange Upkeep)} : Settled (opening zone keys instant ++ rest) ↔ Settled rest :=
  settled_served.trans settled_clocked

/-- What a check does with the keys that it has listed. -/
def checkListed (defaults : Defaults) (reading : Detail) (keys : List SigningKey) : Step Unit :=
  match keys.find? fun key => key.active && key.role == .keySigning,
    keys.find? fun key => key.active && key.role == .zoneSigning with
  | some _, some active => now >>= rotate defaults reading keys active
  | _, _ => throw .inconsistent

theorem checkSigning_of_signed {reading : Detail} (marked : reading.signed = true) :
    checkSigning defaults reading =
      ask (.listKeys reading.id) >>= checkListed defaults reading := by
  rw [checkSigning, marked]
  rfl

/-- A list of the keys of a zone has an active key of each role that the zone has one of. -/
theorem exists_active {ring : Keyring} {keys : List SigningKey} (same : keys.Perm ring.keys)
    {role : KeyRole} (held : ∃ key ∈ ring.keys, key.active = true ∧ key.role = role) :
    ∃ key, keys.find? (fun key => key.active && key.role == role) = some key := by
  obtain ⟨key, member, active, is⟩ := held
  refine Option.isSome_iff_exists.mp (List.find?_isSome.mpr ⟨key, same.mem_iff.mpr member, ?_⟩)
  rw [active, is, Bool.true_and, beq_self_eq_true]

theorem exists_listing {ring : Keyring} (signed : Signed ring) {keys : List SigningKey}
    (same : keys.Perm ring.keys) : ∃ active, Listing ring keys active := by
  obtain ⟨active, first⟩ := exists_active same signed.zoneSigning
  exact ⟨active, same, (zoneSigningKey?_true keys).trans first⟩

theorem checkListed_of_listing (signed : Signed before.ring) {keys : List SigningKey}
    {active : SigningKey} (listing : Listing before.ring keys active) (reading : Detail) :
    checkListed defaults reading keys = now >>= rotate defaults reading keys active := by
  obtain ⟨anchor, anchored⟩ := exists_active listing.same signed.keySigning
  rw [checkListed, anchored, (zoneSigningKey?_true keys).symm.trans listing.first]

/-- A signed zone, which has an active key of each role. -/
structure Marked (held : Holding) : Prop where
  marked : held.signed = true
  signed : Signed held.ring

/-- A pass over a signed zone either fails to list the keys or makes one of the turns. -/
theorem checks_iff (marked : Marked before) :
    Checks defaults zone before pass after ↔
      (∃ error, pass.exchanges = [refused (.listKeys zone) error] ∧ after = before ∧
        pass.result = .error (.backend error)) ∨
      ∃ keys active rest, Listing before.ring keys active ∧
        pass.exchanges = opening zone keys pass.instant ++ rest ∧
        Turn defaults zone pass.instant before keys active rest after pass.result := by
  constructor
  · rintro ⟨reading, fresh, path⟩
    rw [checkSigning_of_signed (fresh.signed.trans marked.marked), fresh.id] at path
    rcases path_ask_bind.mp path with failed | ⟨keys, middle, rest, calls, serves, onwards⟩
    · exact Or.inl failed
    obtain ⟨same, rfl⟩ := serves_listKeys.mp serves
    obtain ⟨active, listing⟩ := exists_listing marked.signed same
    rw [checkListed_of_listing marked.signed listing] at onwards
    obtain ⟨last, rfl, turning⟩ := path_now_bind.mp onwards
    exact Or.inr ⟨keys, active, last, listing, calls,
      turn_of_path fresh marked.signed listing turning⟩
  · intro cases
    let reading : Detail := ⟨zone, zone, none, none, before.signed, before.account, []⟩
    have fresh : Read zone before reading := ⟨rfl, rfl, rfl⟩
    refine .read reading fresh ?_
    rw [checkSigning_of_signed (fresh.signed.trans marked.marked)]
    refine path_ask_bind.mpr (cases.imp_right ?_)
    rintro ⟨keys, active, rest, listing, calls, turn⟩
    refine ⟨keys, before, _, calls, serves_listKeys.mpr ⟨listing.same, rfl⟩, ?_⟩
    rw [checkListed_of_listing marked.signed listing]
    exact path_now_bind.mpr ⟨rest, rfl, path_of_turn fresh listing turn⟩

end Checks

/-! ### Passes in which no call fails -/

/-- The time of the successor has come, but every zone signing key is active. -/
structure Stranded (held : Holding) (instant : Instant) : Prop where
  due : ∃ since, Rotation.ofAccount held.account = .activating since ∧ since.le instant = true
  spent : ∀ key ∈ held.ring.keys, key.role = .zoneSigning → key.active = true

/-- An inactive zone signing key has taken over from an active one, which is gone. -/
structure RolledOver (before : Holding) (instant : Instant) (after : Holding) : Prop where
  keys : ∃ successor ∈ before.ring.keys, ∃ active ∈ before.ring.keys, ∃ new old,
    successor.role = .zoneSigning ∧ successor.active = false ∧ successor.id = some new ∧
    active.role = .zoneSigning ∧ active.active = true ∧ active.id = some old ∧
    after.ring = (before.ring.switching new true).without old
  signed : after.signed = before.signed
  account : after.account = some (Rotation.expiring (instant.addMillis zoneKeyLifetime)).toAccount

/-- What a pass comes to if none of its calls fails. -/
inductive Advance (defaults : Defaults) (zone : String) (instant : Instant) (before : Holding) :
    Holding → Except Error Unit → Prop
  | tracked (state : Rotation.ofAccount before.account = .untracked) :
    Advance defaults zone instant before
      { before with
        account := some (Rotation.expiring (instant.addMillis zoneKeyLifetime)).toAccount } (.ok ())
  | waiting (since : Instant) (names : Names before.account since)
      (early : since.le instant = false) :
    Advance defaults zone instant before before (.ok ())
  | begun (since : Instant) (state : Rotation.ofAccount before.account = .expiring since)
      (due : since.le instant = true) {stored : SigningKey} {ring : Keyring}
      (created : Takes zone (.createKey zone successorKey) stored before.ring ring) :
    Advance defaults zone instant before
      ⟨ring, true,
        some (Rotation.activating (instant.addMillis (activationDelay defaults))).toAccount⟩
      (.ok ())
  | stranded (stranded : Stranded before instant) :
    Advance defaults zone instant before before (.error .inconsistent)
  | finished (since : Instant) (state : Rotation.ofAccount before.account = .activating since)
      (due : since.le instant = true) {after : Holding} (rolled : RolledOver before instant after) :
    Advance defaults zone instant before after (.ok ())

section Advances

variable {defaults : Defaults} {zone : String} {before after : Holding} {pass : Pass}

theorem records_of_settled {state : Rotation} {account account' : Option String}
    {exchanges : List (Exchange Upkeep)} {result : Except Error Unit}
    (records : Records zone state account exchanges account' result)
    (settled : Settled exchanges) : account' = some state.toAccount ∧ result = .ok () := by
  cases records with
  | stored => exact ⟨rfl, rfl⟩
  | failed error => exact absurd settled not_settled_refused

/-- A list without an inactive zone signing key is that of a zone without one. -/
theorem active_of_none {ring : Keyring} {keys : List SigningKey} (same : keys.Perm ring.keys)
    (none : zoneSigningKey? keys false = none) (key : SigningKey) (held : key ∈ ring.keys)
    (role : key.role = .zoneSigning) : key.active = true := by
  have other := List.find?_eq_none.mp none key (same.mem_iff.mpr held)
  rw [role, beq_self_eq_true, Bool.and_true, beq_iff_eq,
    Bool.not_eq_false] at other
  exact other

/-- A pass over a signed zone in which no call fails advances it. -/
theorem advance_of_checks (marked : Marked before)
    (checks : Checks defaults zone before pass after) (unfailing : pass.Unfailing) :
    Advance defaults zone pass.instant before after pass.result := by
  unfold Pass.Unfailing at unfailing
  rcases (checks_iff marked).mp checks with
    ⟨error, calls, _⟩ | ⟨keys, active, rest, listing, calls, turn⟩
  · rw [calls] at unfailing
    exact absurd unfailing not_settled_refused
  rw [calls] at unfailing
  have settled : Settled rest := settled_opening.mp unfailing
  generalize pass.result = result at turn
  cases turn with
  | tracked state records =>
    obtain ⟨rfl, rfl⟩ := records_of_settled records settled
    exact .tracked state
  | waiting since names early => exact .waiting since names early
  | published since state due created records =>
    obtain ⟨rfl, rfl⟩ := records_of_settled records (settled_served.mp settled)
    exact .begun since state due created
  | stranded since state due none =>
    exact .stranded ⟨⟨since, state, due⟩, active_of_none listing.same none⟩
  | finished since state due next newId oldId records =>
    obtain ⟨rfl, rfl⟩ :=
      records_of_settled records (settled_served.mp (settled_served.mp settled))
    obtain ⟨successorHeld, inactive, successorRole⟩ := held_of_listed listing next
    obtain ⟨activeHeld, signing, activeRole⟩ := held_of_listed listing listing.first
    exact .finished since state due ⟨⟨_, successorHeld, _, activeHeld, _, _, successorRole,
      inactive, newId, activeRole, signing, oldId, rfl⟩, rfl, rfl⟩
  | unpublished | unactivated => exact absurd settled not_settled_refused
  | undeleted => exact absurd (settled_served.mp settled) not_settled_refused

end Advances

/-! ### Kinds of calls -/

/-- The calls that a pass over a signed zone makes. The keys that it creates do not sign yet. -/
def Routine : Call → Prop
  | .backend (.createKey _ key) => key.active = false
  | .backend (.listKeys _) | .backend (.setKeyActive _ _ _) | .backend (.deleteKey _ _)
  | .backend (.updateZone _ _) | .now => True
  | _ => False

section Kinds

variable {defaults : Defaults} {reading : Detail}

theorem only_ask_bind {α : Type} {kind : Call → Prop} {request : Backend.Call}
    {next : Backend.Value request → Step α} (permitted : kind (.backend request))
    (rest : ∀ value, (next value).run.Only (I := Upkeep) kind) :
    (ask request >>= next).run.Only (I := Upkeep) kind :=
  only_run_bind ⟨permitted, fun _ => trivial⟩ rest

theorem routine_recordRotation (state : Rotation) :
    (recordRotation reading state none).run.Only (I := Upkeep) Routine :=
  ⟨trivial, fun _ => trivial⟩

theorem routine_rotate (keys : List SigningKey) (active : SigningKey) (instant : Instant) :
    (rotate defaults reading keys active instant).run.Only (I := Upkeep) Routine := by
  unfold rotate
  split
  · exact routine_recordRotation _
  · split
    · exact only_ask_bind rfl fun _ => routine_recordRotation _
    · trivial
  · split
    · unfold finishRollover
      dsimp only
      split
      · exact only_ask_bind trivial fun _ => only_ask_bind trivial fun _ =>
          routine_recordRotation _
      · trivial
    · trivial

theorem routine_checkSigning (marked : reading.signed = true) :
    (checkSigning defaults reading).run.Only (I := Upkeep) Routine := by
  rw [checkSigning_of_signed marked]
  refine only_ask_bind trivial fun keys => ?_
  unfold checkListed
  split
  · exact ⟨trivial, fun instant => routine_rotate _ _ _⟩
  · trivial

end Kinds

end Zonecast.Upkeep
