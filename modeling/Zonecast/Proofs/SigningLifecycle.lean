/-
How the signing of a zone goes on from its first pass, as long as no call fails. The first pass
signs the zone, and from then on passes wait for the time that the account names. Once it has come,
a pass publishes a successor and tags the time at which that takes over; and once that has come, a
pass switches to the successor and tags the time of the next. So between rollovers the zone has one
zone signing key, and during a rollover two, of which one signs.

A zone is in one of these positions after any number of passes, and the position of a zone during a
rollover names the pass that published the successor. Nothing is asked of the clock but that the
times that are tagged can be held; it may even go back.
-/
import Zonecast.Proofs.EnabledSigning
import Zonecast.Proofs.SpareKeys

namespace Zonecast

namespace Instant

/-- What is written of a time that is at least two seconds away is still to come. -/
theorem lt_ofMillis_addMillis (instant : Instant) {delay : Int} (long : 2000 ≤ delay) :
    instant.lt (ofMillis (instant.addMillis delay).toMillis) = true := by
  rw [lt, Bool.or_eq_true, decide_eq_true_eq]
  refine Or.inl ?_
  simp only [ofMillis, toMillis, addMillis]
  omega

end Instant

namespace Upkeep

open Process Zone

/-! ### Keys of one role -/

/-- The keys of a zone that have this role, active or not. -/
def keysOf (role : KeyRole) (ring : Keyring) : List SigningKey :=
  ring.keys.filter fun key => key.role == role

section Roles

variable {zone : String} {role : KeyRole} {ring after : Keyring} {key stored : SigningKey}

/-- A new key is one more of its role. -/
theorem perm_keysOf_created (created : Takes zone (.createKey zone key) stored ring after)
    (same : key.role = role) : (keysOf role after).Perm (stored :: keysOf role ring) := by
  cases created with
  | created before after used key number ds fresh =>
    simp only [keysOf, List.filter_append, List.filter_cons, same, beq_self_eq_true, if_true]
    exact List.perm_middle
  | elsewhere _ _ _ apart => exact absurd apart self_ne_false

/-- Keys of other roles are those they were. -/
theorem keysOf_created (created : Takes zone (.createKey zone key) stored ring after)
    (other : key.role ≠ role) : keysOf role after = keysOf role ring := by
  cases created with
  | created before after used key number ds fresh =>
    simp only [keysOf, List.filter_append, List.filter_cons, beq_eq_false_iff_ne.mpr other,
      Bool.false_eq_true, if_false]
  | elsewhere _ _ _ apart => exact absurd apart self_ne_false

/-- A new key is stored as it was asked for, with a number of its own. -/
theorem exists_stored (created : Takes zone (.createKey zone key) stored ring after) :
    ∃ number ds, stored = { key with id := some number, ds } := by
  cases created with
  | created before after used key number ds fresh => exact ⟨number, ds, rfl⟩
  | elsewhere _ _ _ apart => exact absurd apart self_ne_false

/-- Of each role, the keys of a zone after a takeover are those that were not deleted. -/
theorem keysOf_takeover (role : KeyRole) (ring : Keyring) (new old : UInt32) :
    keysOf role ((ring.switching new true).without old) =
      ((keysOf role ring).map (Keyring.switch new true)).filter fun key => key.id != some old := by
  have same : ((fun key : SigningKey => key.role == role) ∘ Keyring.switch new true) =
      fun key => key.role == role := by
    funext key
    simp
  simp only [keysOf, Keyring.without, Keyring.switching]
  rw [List.filter_comm, List.filter_map, same]

end Roles

/-! ### Writing calls -/

/-- Whether a call asks the backend to change something. -/
def Call.isWrite : Call → Bool
  | .backend request => request.isWrite
  | _ => false

/-- Those of some calls that ask the backend to change something. -/
def writes (exchanges : List (Exchange Upkeep)) : List (Exchange Upkeep) :=
  exchanges.filter fun exchange => Call.isWrite exchange.request

/-- The writing calls of a pass that signs a zone. -/
def signing (zone : String) (instant : Instant) (anchor signer : SigningKey) :
    List (Exchange Upkeep) :=
  [served (.createKey zone newKeySigningKey) anchor,
    served (.createKey zone newZoneSigningKey) signer,
    served (.createMetadata zone signingMetadata) (),
    served (.updateZone zone (signingSettings instant)) (), served (.rectifyZone zone) ()]

/-- The writing calls of a pass that publishes a successor. -/
def publication (defaults : Defaults) (zone : String) (instant : Instant) (stored : SigningKey) :
    List (Exchange Upkeep) :=
  [served (.createKey zone successorKey) stored,
    served (.updateZone zone
      ⟨some (Rotation.activating (instant.addMillis (activationDelay defaults))).toAccount,
        none⟩) ()]

/-- The writing calls of a pass that switches to a successor. -/
def takeover (zone : String) (instant : Instant) (new old : UInt32) : List (Exchange Upkeep) :=
  [served (.setKeyActive zone new true) (), served (.deleteKey zone old) (),
    served (.updateZone zone
      ⟨some (Rotation.expiring (instant.addMillis zoneKeyLifetime)).toAccount, none⟩) ()]

/-- The times that a pass has tagged can be held by an instant. -/
structure Pass.Fits (defaults : Defaults) (zone : String) (pass : Pass) : Prop where
  expiry : ∀ rectify, served (.updateZone zone
      ⟨some (Rotation.expiring (pass.instant.addMillis zoneKeyLifetime)).toAccount, rectify⟩) () ∈
        pass.exchanges → (pass.instant.addMillis zoneKeyLifetime).Representable
  activation : ∀ rectify, served (.updateZone zone
      ⟨some (Rotation.activating (pass.instant.addMillis (activationDelay defaults))).toAccount,
        rectify⟩) () ∈ pass.exchanges →
    (pass.instant.addMillis (activationDelay defaults)).Representable

/-! ### Positions -/

/-- A zone between rollovers. One key signs it, to be replaced once this time has come. -/
structure Resting (held : Holding) (since : Instant) (signer : SigningKey) : Prop
    extends Marked held where
  state : Rotation.ofAccount held.account = .expiring since
  anchored : ∃ anchor, keysOf .keySigning held.ring = [anchor] ∧ anchor.active = true
  keys : keysOf .zoneSigning held.ring = [signer]
  signs : signer.active = true

/-- A zone during a rollover. One key signs it, and another is published to take over once this
time has come. -/
structure Rolling (held : Holding) (since : Instant) (signer successor : SigningKey) : Prop
    extends Marked held where
  state : Rotation.ofAccount held.account = .activating since
  anchored : ∃ anchor, keysOf .keySigning held.ring = [anchor] ∧ anchor.active = true
  keys : (keysOf .zoneSigning held.ring).Perm [signer, successor]
  signs : signer.active = true
  silent : successor.active = false
  published : successor.published = true

section Steps

variable {defaults : Defaults} {zone : String} {before after : Holding} {pass : Pass}
  {since : Instant} {signer successor : SigningKey}

/-- A pass in which no call fails leaves an unsigned zone without keys between rollovers. -/
theorem resting_of_enabling (unkeyed : before.ring.keys = [])
    (enabling : Enabling zone pass.instant before pass.exchanges after pass.result)
    (unfailing : pass.Unfailing) (fits : pass.Fits defaults zone) :
    pass.result = .ok () ∧ ∃ anchor signer,
      writes pass.exchanges = signing zone pass.instant anchor signer ∧
      Resting after (.ofMillis (pass.instant.addMillis zoneKeyLifetime).toMillis) signer := by
  unfold Pass.Unfailing at unfailing
  have expiry := fits.expiry (some true)
  generalize pass.exchanges = exchanges at enabling unfailing expiry ⊢
  generalize pass.result = result at enabling ⊢
  cases enabling with
  | unkeyed => exact absurd unfailing not_settled_refused
  | halved => exact absurd (settled_served.mp unfailing) not_settled_refused
  | @keyed anchor signer ring ring' anchored signs rest account _ describes =>
    have settled := settled_served.mp (settled_served.mp unfailing)
    cases describes with
    | undescribed => exact absurd settled not_settled_refused
    | untagged =>
      exact absurd (settled_clocked.mp (settled_served.mp settled)) not_settled_refused
    | tagged rectifies =>
      cases rectifies with
      | counted =>
        exact absurd (settled_served.mp (settled_clocked.mp (settled_served.mp settled)))
          not_settled_refused
      | done =>
        have first := anchored_of_created unkeyed anchored
        have fit := expiry (by simp [signingSettings])
        obtain ⟨number, ds, rfl⟩ := exists_stored signs
        refine ⟨rfl, anchor, _, rfl, ⟨rfl, signed_of_anchored first signs⟩,
          Rotation.ofAccount_expiring fit, ⟨anchor, ?_, first.active⟩, ?_, rfl⟩
        · rw [keysOf_created signs (by decide)]
          simp [keysOf, first.only, first.role]
        · have none : keysOf .zoneSigning ring = [] := by simp [keysOf, first.only, first.role]
          exact List.perm_singleton.mp (none ▸ perm_keysOf_created signs rfl)

/-- A pass over a signed zone in which no call fails makes a turn in which none does. -/
theorem exists_turn (marked : Marked before) (checks : Checks defaults zone before pass after)
    (unfailing : pass.Unfailing) :
    ∃ keys active rest, Listing before.ring keys active ∧ Settled rest ∧
      pass.exchanges = opening zone keys pass.instant ++ rest ∧
      Turn defaults zone pass.instant before keys active rest after pass.result := by
  unfold Pass.Unfailing at unfailing
  rcases (checks_iff marked).mp checks with
    ⟨error, calls, _⟩ | ⟨keys, active, rest, listing, calls, turn⟩
  · exact absurd (calls ▸ unfailing) not_settled_refused
  · exact ⟨keys, active, rest, listing, settled_opening.mp (calls ▸ unfailing), calls, turn⟩

/-- A pass that records a state does so by one call, if none fails. -/
theorem calls_of_records {state : Rotation} {account account' : Option String}
    {exchanges : List (Exchange Upkeep)} {result : Except Error Unit}
    (records : Records zone state account exchanges account' result)
    (settled : Settled exchanges) :
    exchanges = [served (.updateZone zone ⟨some state.toAccount, none⟩) ()] := by
  cases records with
  | stored => rfl
  | failed error => exact absurd settled not_settled_refused

/-- The calls that learn the keys and the time change nothing. -/
theorem writes_opening (keys : List SigningKey) (instant : Instant)
    (rest : List (Exchange Upkeep)) : writes (opening zone keys instant ++ rest) = writes rest :=
  rfl

/-- Between rollovers a pass in which no call fails waits, or it publishes a successor if the time
has come. -/
theorem step_of_resting (resting : Resting before since signer)
    (checks : Checks defaults zone before pass after) (unfailing : pass.Unfailing)
    (fits : pass.Fits defaults zone) :
    pass.result = .ok () ∧
      (since.le pass.instant = false ∧ writes pass.exchanges = [] ∧ after = before ∨
        since.le pass.instant = true ∧ ∃ stored,
          writes pass.exchanges = publication defaults zone pass.instant stored ∧
          Rolling after (.ofMillis (pass.instant.addMillis (activationDelay defaults)).toMillis)
            signer stored) := by
  have marked := marked_of_checks resting.toMarked checks
  obtain ⟨keys, active, rest, _, settled, calls, turn⟩ :=
    exists_turn resting.toMarked checks unfailing
  have activation := fits.activation none
  rw [calls] at activation
  rw [calls, writes_opening]
  generalize pass.result = result at turn ⊢
  have other : ∀ later, Rotation.ofAccount before.account ≠ .activating later := by
    intro later activates
    cases resting.state.symm.trans activates
  cases turn with
  | tracked state => cases resting.state.symm.trans state
  | waiting time names early =>
    obtain rfl := names.unique (Or.inl resting.state)
    exact ⟨rfl, Or.inl ⟨early, rfl, rfl⟩⟩
  | unpublished => exact absurd settled not_settled_refused
  | @published time state due stored ring created exchanges account _ records =>
    obtain rfl := calls_of_records records (settled_served.mp settled)
    obtain ⟨rfl, rfl⟩ := records_of_settled records (settled_served.mp settled)
    cases resting.state.symm.trans state
    have fit := activation (by simp)
    obtain ⟨anchor, anchored, active⟩ := resting.anchored
    obtain ⟨number, ds, rfl⟩ := exists_stored created
    refine ⟨rfl, Or.inr ⟨due, _, rfl, marked, Rotation.ofAccount_activating fit,
      ⟨anchor, ?_, active⟩, ?_, resting.signs, rfl, rfl⟩⟩
    · exact (keysOf_created created (by decide)).trans anchored
    · have keys : (keysOf .zoneSigning ring).Perm
          (_ :: keysOf .zoneSigning before.ring) := perm_keysOf_created created rfl
      exact (resting.keys ▸ keys).trans (.swap _ _ _)
  | stranded time state => exact absurd state (other time)
  | unactivated time state => exact absurd state (other time)
  | undeleted time state => exact absurd state (other time)
  | finished time state => exact absurd state (other time)

/-- Keys of a zone are one if their numbers are. -/
theorem eq_of_id {ring : Keyring} (signed : Signed ring) {key other : SigningKey}
    (held : key ∈ ring.keys) (otherHeld : other ∈ ring.keys) (same : key.id = other.id) :
    key = other :=
  List.inj_on_of_nodup_map signed.distinct held otherHeld same

namespace Rolling

variable {held : Holding}

theorem mem_iff (rolling : Rolling held since signer successor) {key : SigningKey} :
    key ∈ held.ring.keys ∧ key.role = .zoneSigning ↔ key = signer ∨ key = successor := by
  rw [← List.mem_pair, ← rolling.keys.mem_iff, keysOf, List.mem_filter, beq_iff_eq]

theorem mem_signer (rolling : Rolling held since signer successor) :
    signer ∈ held.ring.keys ∧ signer.role = .zoneSigning :=
  rolling.mem_iff.mpr (Or.inl rfl)

theorem mem_successor (rolling : Rolling held since signer successor) :
    successor ∈ held.ring.keys ∧ successor.role = .zoneSigning :=
  rolling.mem_iff.mpr (Or.inr rfl)

/-- The zone signing key that signs is the old one. -/
theorem eq_signer (rolling : Rolling held since signer successor) {key : SigningKey}
    (member : key ∈ held.ring.keys) (role : key.role = .zoneSigning) (active : key.active = true) :
    key = signer := by
  refine (rolling.mem_iff.mp ⟨member, role⟩).resolve_right ?_
  rintro rfl
  exact Bool.false_ne_true (rolling.silent.symm.trans active)

theorem eq_successor (rolling : Rolling held since signer successor) {key : SigningKey}
    (member : key ∈ held.ring.keys) (role : key.role = .zoneSigning)
    (inactive : key.active = false) : key = successor := by
  refine (rolling.mem_iff.mp ⟨member, role⟩).resolve_left ?_
  rintro rfl
  exact Bool.false_ne_true (inactive.symm.trans rolling.signs)

/-- A takeover leaves the successor, which signs from then on. -/
theorem keysOf_zoneSigning (rolling : Rolling held since signer successor) {new old : UInt32}
    (newId : successor.id = some new) (oldId : signer.id = some old) :
    keysOf .zoneSigning ((held.ring.switching new true).without old) =
      [{ successor with active := true }] := by
  have ne : new ≠ old := by
    rintro rfl
    have same := eq_of_id rolling.signed rolling.mem_signer.1 rolling.mem_successor.1
      (oldId.trans newId.symm)
    exact Bool.false_ne_true (rolling.silent.symm.trans (same ▸ rolling.signs))
  have left : ([signer, successor].map (Keyring.switch new true)).filter
      (fun key => key.id != some old) = [{ successor with active := true }] := by
    simp [Keyring.switch, newId, oldId, ne, ne.symm]
  rw [keysOf_takeover, ← List.perm_singleton, ← left]
  exact (rolling.keys.map _).filter _

/-- It leaves the key signing key as it is. -/
theorem keysOf_keySigning (rolling : Rolling held since signer successor) {new old : UInt32}
    (newId : successor.id = some new) (oldId : signer.id = some old) :
    keysOf .keySigning ((held.ring.switching new true).without old) =
      keysOf .keySigning held.ring := by
  obtain ⟨anchor, anchored, _⟩ := rolling.anchored
  have member : anchor ∈ keysOf .keySigning held.ring := anchored ▸ List.mem_singleton.mpr rfl
  rw [keysOf, List.mem_filter, beq_iff_eq] at member
  have apart : ∀ key ∈ held.ring.keys, key.role = .zoneSigning → anchor.id ≠ key.id := by
    intro key there role same
    rw [eq_of_id rolling.signed member.1 there same, role] at member
    exact absurd member.2 (by decide)
  have notNew := newId ▸ apart successor rolling.mem_successor.1 rolling.mem_successor.2
  have notOld := oldId ▸ apart signer rolling.mem_signer.1 rolling.mem_signer.2
  rw [keysOf_takeover, anchored]
  simp [Keyring.switch, notNew, notOld]

end Rolling

/-- During a rollover a pass in which no call fails waits, or it switches to the successor if the
time has come. -/
theorem step_of_rolling (rolling : Rolling before since signer successor)
    (checks : Checks defaults zone before pass after) (unfailing : pass.Unfailing)
    (fits : pass.Fits defaults zone) :
    pass.result = .ok () ∧
      (since.le pass.instant = false ∧ writes pass.exchanges = [] ∧ after = before ∨
        since.le pass.instant = true ∧ ∃ new old, successor.id = some new ∧ signer.id = some old ∧
          writes pass.exchanges = takeover zone pass.instant new old ∧
          Resting after (.ofMillis (pass.instant.addMillis zoneKeyLifetime).toMillis)
            { successor with active := true }) := by
  have marked := marked_of_checks rolling.toMarked checks
  obtain ⟨keys, active, rest, listing, settled, calls, turn⟩ :=
    exists_turn rolling.toMarked checks unfailing
  have expiry := fits.expiry none
  rw [calls] at expiry
  rw [calls, writes_opening]
  generalize pass.result = result at turn ⊢
  cases turn with
  | tracked state => cases rolling.state.symm.trans state
  | unpublished _ state => cases rolling.state.symm.trans state
  | published _ state => cases rolling.state.symm.trans state
  | waiting time names early =>
    obtain rfl := names.unique (Or.inr rolling.state)
    exact ⟨rfl, Or.inl ⟨early, rfl, rfl⟩⟩
  | stranded _ _ _ none =>
    have signs := active_of_none listing.same none successor rolling.mem_successor.1
      rolling.mem_successor.2
    exact absurd (rolling.silent.symm.trans signs) Bool.false_ne_true
  | unactivated => exact absurd settled not_settled_refused
  | undeleted => exact absurd (settled_served.mp settled) not_settled_refused
  | finished time state due next newId oldId records =>
    have settled := settled_served.mp (settled_served.mp settled)
    obtain rfl := calls_of_records records settled
    obtain ⟨rfl, rfl⟩ := records_of_settled records settled
    cases rolling.state.symm.trans state
    have fit := expiry (by simp)
    obtain ⟨nextHeld, inactive, nextRole⟩ := held_of_listed listing next
    obtain rfl := rolling.eq_successor nextHeld nextRole inactive
    obtain ⟨activeHeld, signs, activeRole⟩ := held_of_listed listing listing.first
    obtain rfl := rolling.eq_signer activeHeld activeRole signs
    obtain ⟨anchor, anchored, anchors⟩ := rolling.anchored
    exact ⟨rfl, Or.inr ⟨due, _, _, newId, oldId, rfl, marked, Rotation.ofAccount_expiring fit,
      ⟨anchor, (rolling.keysOf_keySigning newId oldId).trans anchored, anchors⟩,
      rolling.keysOf_zoneSigning newId oldId, rfl⟩⟩

end Steps

/-! ### Courses -/

/-- One of these passes published this key, and none has changed anything since. -/
inductive Published (defaults : Defaults) (zone : String) (start : Holding) :
    List Pass → Holding → SigningKey → Prop
  | intro {earlier waiting : List Pass} {held begun : Holding} {beginning : Pass}
      {stored : SigningKey} (course : Course defaults zone start earlier held)
      (checks : Checks defaults zone held beginning begun)
      (calls : writes beginning.exchanges =
        publication defaults zone beginning.instant stored)
      (idle : ∀ pass ∈ waiting, writes pass.exchanges = []) :
    Published defaults zone start (earlier ++ beginning :: waiting) begun stored

/-- Where a zone that was unsigned before these passes has come to. -/
inductive Position (defaults : Defaults) (zone : String) (start : Holding) :
    List Pass → Holding → Prop
  | unsigned : Position defaults zone start [] start
  | resting {passes : List Pass} {held : Holding} {since : Instant} {signer : SigningKey}
      (later : passes ≠ []) (resting : Resting held since signer) :
    Position defaults zone start passes held
  | rolling {passes : List Pass} {held : Holding} {since : Instant}
      {signer successor : SigningKey}
      (published : Published defaults zone start passes held successor)
      (rolling : Rolling held since signer successor) :
    Position defaults zone start passes held

/-- What one more pass does after these: the first signs the zone; a later one waits for the time
that the account names, or makes the one transition that is due. -/
inductive Move (defaults : Defaults) (zone : String) (start : Holding) (passes : List Pass)
    (before : Holding) (pass : Pass) (after : Holding) : Prop
  | signed (first : passes = []) (anchor signer : SigningKey)
      (calls : writes pass.exchanges = signing zone pass.instant anchor signer)
      (marked : after.signed = true)
      (tagged : Rotation.ofAccount after.account =
        .expiring (.ofMillis (pass.instant.addMillis zoneKeyLifetime).toMillis))
  | waited (later : passes ≠ []) (since : Instant) (names : Names before.account since)
      (early : since.le pass.instant = false) (calls : writes pass.exchanges = [])
      (same : after = before)
  | published (later : passes ≠ []) (since : Instant)
      (state : Rotation.ofAccount before.account = .expiring since)
      (due : since.le pass.instant = true) (stored : SigningKey)
      (calls : writes pass.exchanges = publication defaults zone pass.instant stored)
      (tagged : Rotation.ofAccount after.account =
        .activating (.ofMillis (pass.instant.addMillis (activationDelay defaults)).toMillis))
  /-- The key that is left is the one that this rollover published. -/
  | tookOver (later : passes ≠ []) (since : Instant)
      (state : Rotation.ofAccount before.account = .activating since)
      (due : since.le pass.instant = true) (stored : SigningKey)
      (published : Published defaults zone start passes before stored) (new old : UInt32)
      (newId : stored.id = some new)
      (calls : writes pass.exchanges = takeover zone pass.instant new old)
      (only : keysOf .zoneSigning after.ring = [{ stored with active := true }])
      (tagged : Rotation.ofAccount after.account =
        .expiring (.ofMillis (pass.instant.addMillis zoneKeyLifetime).toMillis))

/-- A zone whose account says which keys it has. -/
structure Orderly (held : Holding) : Prop where
  tagged : Tagged held
  anchored : ∃ anchor, keysOf .keySigning held.ring = [anchor] ∧ anchor.active = true
  expiring : ∀ since, Rotation.ofAccount held.account = .expiring since →
    ∃ signer, keysOf .zoneSigning held.ring = [signer] ∧ signer.active = true
  activating : ∀ since, Rotation.ofAccount held.account = .activating since →
    ∃ signer successor, (keysOf .zoneSigning held.ring).Perm [signer, successor] ∧
      signer.active = true ∧ successor.active = false ∧ successor.published = true

/-- A pass after others in the life of a zone that was unsigned before all of them. -/
structure Lives (defaults : Defaults) (zone : String) (start : Holding) (passes : List Pass)
    (before : Holding) (pass : Pass) (after : Holding) : Prop where
  succeeds : pass.result = .ok ()
  orderly : Orderly after
  move : Move defaults zone start passes before pass after
  /-- A time that the pass tags is still to come. -/
  dated : writes pass.exchanges ≠ [] →
    ∃ since, Names after.account since ∧ pass.instant.lt since = true

theorem Resting.orderly {held : Holding} {since : Instant} {signer : SigningKey}
    (resting : Resting held since signer) : Orderly held where
  tagged := ⟨since, Or.inl resting.state⟩
  anchored := resting.anchored
  expiring := fun _ _ => ⟨signer, resting.keys, resting.signs⟩
  activating := fun _ activates => by cases resting.state.symm.trans activates

theorem Rolling.orderly {held : Holding} {since : Instant} {signer successor : SigningKey}
    (rolling : Rolling held since signer successor) : Orderly held where
  tagged := ⟨since, Or.inr rolling.state⟩
  anchored := rolling.anchored
  expiring := fun _ expires => by cases rolling.state.symm.trans expires
  activating := fun _ _ =>
    ⟨signer, successor, rolling.keys, rolling.signs, rolling.silent, rolling.published⟩

section Courses

variable {defaults : Defaults} {zone : String} {start before after : Holding} {pass : Pass}
  {passes : List Pass}

theorem Course.concat (course : Course defaults zone start passes before)
    (checks : Checks defaults zone before pass after) :
    Course defaults zone start (passes ++ [pass]) after := by
  induction course with
  | nil => exact .cons checks (.nil _)
  | cons first _ inductionHypothesis => exact .cons first (inductionHypothesis checks)

/-- A key that was published stays so over a pass that changes nothing. -/
theorem Published.concat {stored : SigningKey}
    (published : Published defaults zone start passes before stored)
    (idle : writes pass.exchanges = []) :
    Published defaults zone start (passes ++ [pass]) before stored := by
  cases published with
  | intro course checks calls waiting =>
    rw [List.append_assoc, List.cons_append]
    refine .intro course checks calls fun each member => ?_
    rcases List.mem_append.mp member with earlier | last
    · exact waiting each earlier
    · rwa [List.mem_singleton.mp last]

theorem Published.ne_nil {stored : SigningKey}
    (published : Published defaults zone start passes before stored) : passes ≠ [] := by
  cases published
  simp

/-- Two TTLs are two seconds at least. -/
theorem le_activationDelay (ttl : defaults.ttl ≠ 0) : 2000 ≤ activationDelay defaults := by
  have positive : 0 < defaults.ttl.toNat :=
    Nat.pos_of_ne_zero fun zero => ttl (UInt32.toNat_inj.mp zero)
  unfold activationDelay
  omega

/-- A pass in which no call fails makes one of the moves and leaves the zone in a position. -/
theorem step_of_position (ttl : defaults.ttl ≠ 0) (unmarked : start.signed = false)
    (unkeyed : start.ring.keys = []) (course : Course defaults zone start passes before)
    (position : Position defaults zone start passes before)
    (checks : Checks defaults zone before pass after) (unfailing : pass.Unfailing)
    (fits : pass.Fits defaults zone) :
    Position defaults zone start (passes ++ [pass]) after ∧
      Lives defaults zone start passes before pass after := by
  have later : passes ++ [pass] ≠ [] := by simp
  have lifetime := Instant.lt_ofMillis_addMillis pass.instant
    (show 2000 ≤ zoneKeyLifetime by decide)
  have delay := Instant.lt_ofMillis_addMillis pass.instant (le_activationDelay ttl)
  cases position with
  | unsigned =>
    obtain ⟨succeeds, anchor, signer, calls, resting⟩ := resting_of_enabling unkeyed
      ((checks_iff_enabling unmarked).mp checks) unfailing fits
    exact ⟨.resting later resting, succeeds, resting.orderly,
      .signed rfl anchor signer calls resting.marked resting.state,
      fun _ => ⟨_, Or.inl resting.state, lifetime⟩⟩
  | resting first resting =>
    obtain ⟨succeeds, ⟨early, calls, rfl⟩ | ⟨due, stored, calls, rolling⟩⟩ :=
      step_of_resting resting checks unfailing fits
    · exact ⟨.resting later resting, succeeds, resting.orderly,
        .waited first _ (Or.inl resting.state) early calls rfl, absurd calls⟩
    · have published : Published defaults zone start (passes ++ [pass]) after stored :=
        .intro course checks calls fun _ => nofun
      exact ⟨.rolling published rolling, succeeds, rolling.orderly,
        .published first _ resting.state due stored calls rolling.state,
        fun _ => ⟨_, Or.inr rolling.state, delay⟩⟩
  | rolling published rolling =>
    obtain ⟨succeeds, ⟨early, calls, rfl⟩ | ⟨due, new, old, newId, _, calls, resting⟩⟩ :=
      step_of_rolling rolling checks unfailing fits
    · exact ⟨.rolling (published.concat calls) rolling, succeeds, rolling.orderly,
        .waited published.ne_nil _ (Or.inr rolling.state) early calls rfl, absurd calls⟩
    · exact ⟨.resting later resting, succeeds, resting.orderly,
        .tookOver published.ne_nil _ rolling.state due _ published new old newId calls
          resting.keys resting.state,
        fun _ => ⟨_, Or.inl resting.state, lifetime⟩⟩

/-- Passes in which no call fails leave a zone in a position. -/
theorem position_of_course {earlier : List Pass} (ttl : defaults.ttl ≠ 0)
    (unmarked : start.signed = false) (unkeyed : start.ring.keys = [])
    (first : Course defaults zone start earlier before)
    (position : Position defaults zone start earlier before)
    (course : Course defaults zone before passes after)
    (unfailing : ∀ pass ∈ passes, pass.Unfailing)
    (fits : ∀ pass ∈ passes, pass.Fits defaults zone) :
    Position defaults zone start (earlier ++ passes) after := by
  induction course generalizing earlier with
  | nil => rwa [List.append_nil]
  | @cons before middle after pass passes checks _ inductionHypothesis =>
    have step := step_of_position ttl unmarked unkeyed first position checks
      (unfailing pass List.mem_cons_self) (fits pass List.mem_cons_self)
    rw [List.append_cons]
    exact inductionHypothesis (first.concat checks) step.1
      (fun each member => unfailing each (List.mem_cons_of_mem _ member))
      fun each member => fits each (List.mem_cons_of_mem _ member)

/-- How a zone that is unsigned and without keys goes on, whatever the readings of the clock, if no
call of any pass fails. Each pass succeeds. After each, the account says which keys there are: one
key signing key, which signs, and one zone signing key, which does, or during a rollover a second
one, which is only published. The first pass signs the zone. A later pass changes nothing before the
time that the account names, and from then on makes one transition and tags a time that is still to
come; a rollover that is completed leaves the zone signing key that it has published. -/
theorem lives_of_course (defaults : Defaults) (zone : String) (start before after : Holding)
    (passes : List Pass) (pass : Pass) (ttl : defaults.ttl ≠ 0) (unmarked : start.signed = false)
    (unkeyed : start.ring.keys = []) (course : Course defaults zone start passes before)
    (checks : Checks defaults zone before pass after)
    (unfailing : ∀ each ∈ passes ++ [pass], each.Unfailing)
    (fits : ∀ each ∈ passes ++ [pass], each.Fits defaults zone) :
    Lives defaults zone start passes before pass after := by
  have position : Position defaults zone start ([] ++ passes) before :=
    position_of_course ttl unmarked unkeyed (.nil start) .unsigned course
      (fun each member => unfailing each (List.mem_append_left _ member))
      fun each member => fits each (List.mem_append_left _ member)
  have last : pass ∈ passes ++ [pass] := List.mem_append_right _ (List.mem_singleton.mpr rfl)
  exact (step_of_position ttl unmarked unkeyed course position checks (unfailing pass last)
    (fits pass last)).2

end Courses

/-! ### A zone that is signed and has its key replaced -/

/-- The time at which the first zone signing key of the test zone is to be replaced. -/
def exampleExpiry : Instant := (Instant.ofMillis 0).addMillis zoneKeyLifetime

/-- The time at which its successor takes over. -/
def exampleSuccession : Instant := exampleExpiry.addMillis (activationDelay exampleDefaults)

/-- The test zone during its first rollover. -/
def exampleRolling : Holding where
  ring := ⟨exampleTagged.ring.keys ++ [exampleSuccessor], 3 :: exampleTagged.ring.used⟩
  signed := true
  account := some (Rotation.activating exampleSuccession).toAccount

/-- The test zone after it. -/
def exampleRenewed : Holding where
  ring := (exampleRolling.ring.switching 3 true).without 2
  signed := true
  account := some (Rotation.expiring (exampleSuccession.addMillis zoneKeyLifetime)).toAccount

/-- The first pass over the unsigned test zone. -/
def exampleSigning : Pass where
  instant := .ofMillis 0
  exchanges := [served (.createKey "test." newKeySigningKey) exampleAnchor,
    served (.createKey "test." newZoneSigningKey) exampleSigner,
    served (.createMetadata "test." signingMetadata) (), clocked (.ofMillis 0),
    served (.updateZone "test." (signingSettings (.ofMillis 0))) (),
    served (.rectifyZone "test.") ()]
  result := .ok ()

def examplePublishing : Pass :=
  examplePass exampleExpiry exampleTagged
    [served (.createKey "test." successorKey) exampleSuccessor,
      served (.updateZone "test." ⟨exampleRolling.account, none⟩) ()] (.ok ())

def exampleTakingOver : Pass :=
  examplePass exampleSuccession exampleRolling
    [served (.setKeyActive "test." 3 true) (), served (.deleteKey "test." 2) (),
      served (.updateZone "test." ⟨exampleRenewed.account, none⟩) ()] (.ok ())

theorem checks_exampleSigning :
    Checks exampleDefaults "test." exampleBare exampleSigning exampleTagged :=
  (checks_iff_enabling rfl).mpr
    (.keyed anchored_exampleBare signing_exampleHalved (.tagged .done))

theorem checks_examplePublishing :
    Checks exampleDefaults "test." exampleTagged examplePublishing exampleRolling := by
  have marked : Marked exampleTagged := ⟨rfl, marked_exampleKeyed.signed⟩
  refine (checks_iff marked).mpr (Or.inr ⟨_, exampleSigner, _, ⟨.refl _, rfl⟩, rfl, ?_⟩)
  exact .published _ (Rotation.ofAccount_expiring (by decide)) (by decide)
    (.created exampleTagged.ring.keys [] [2, 1] successorKey 3 [] (by decide)) .stored

theorem checks_exampleTakingOver :
    Checks exampleDefaults "test." exampleRolling exampleTakingOver exampleRenewed := by
  have marked : Marked exampleTagged := ⟨rfl, marked_exampleKeyed.signed⟩
  refine (checks_iff (marked_of_checks marked checks_examplePublishing)).mpr
    (Or.inr ⟨_, exampleSigner, _, ⟨.refl _, rfl⟩, rfl, ?_⟩)
  have next : zoneSigningKey? exampleRolling.ring.keys false = some exampleSuccessor := rfl
  exact .finished _ (Rotation.ofAccount_activating (by decide)) (by decide) next rfl rfl .stored

/-- A zone is signed, and thirty days later its zone signing key is replaced. -/
theorem lives_exampleBare :
    exampleDefaults.ttl ≠ 0 ∧ exampleBare.signed = false ∧ exampleBare.ring.keys = [] ∧
      Course exampleDefaults "test." exampleBare [exampleSigning, examplePublishing]
        exampleRolling ∧
      Checks exampleDefaults "test." exampleRolling exampleTakingOver exampleRenewed ∧
      Lives exampleDefaults "test." exampleBare [exampleSigning, examplePublishing]
        exampleRolling exampleTakingOver exampleRenewed := by
  have course : Course exampleDefaults "test." exampleBare [exampleSigning, examplePublishing]
      exampleRolling :=
    .cons checks_exampleSigning (.cons checks_examplePublishing (.nil _))
  have unfailing : ∀ each ∈ [exampleSigning, examplePublishing] ++ [exampleTakingOver],
      each.Unfailing := by
    have none : Settled [] := settled_nil
    have signs : exampleSigning.Unfailing := settled_served.mpr (settled_served.mpr
      (settled_served.mpr (settled_clocked.mpr (settled_served.mpr (settled_served.mpr none)))))
    have publishes : examplePublishing.Unfailing :=
      settled_opening.mpr (settled_served.mpr (settled_served.mpr none))
    have takesOver : exampleTakingOver.Unfailing :=
      settled_opening.mpr (settled_served.mpr (settled_served.mpr (settled_served.mpr none)))
    simp [signs, publishes, takesOver]
  have fits : ∀ each ∈ [exampleSigning, examplePublishing] ++ [exampleTakingOver],
      each.Fits exampleDefaults "test." := by
    have signs : exampleSigning.Fits exampleDefaults "test." :=
      ⟨fun _ _ => by decide, fun _ _ => by decide⟩
    have publishes : examplePublishing.Fits exampleDefaults "test." :=
      ⟨fun _ _ => by decide, fun _ _ => by decide⟩
    have takesOver : exampleTakingOver.Fits exampleDefaults "test." :=
      ⟨fun _ _ => by decide, fun _ _ => by decide⟩
    simp [signs, publishes, takesOver]
  exact ⟨by decide, rfl, rfl, course, checks_exampleTakingOver,
    lives_of_course exampleDefaults "test." exampleBare exampleRolling exampleRenewed
      [exampleSigning, examplePublishing] exampleTakingOver (by decide) rfl rfl course
      checks_exampleTakingOver unfailing fits⟩

end Upkeep

end Zonecast
