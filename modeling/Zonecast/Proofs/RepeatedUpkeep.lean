/-
Upkeep that was done once is not done again. A pass over a zone at rest, as a pass in which no call
failed leaves it, only reads, until the time that the account names has come. So upkeep writes
nothing when a zone is merely loaded again. A zone that has just been created has the SOA and the NS
set that it is expected to have as well, and so its first pass patches nothing.
-/
import Zonecast.Proofs.LoadingTurns
import Zonecast.Proofs.StoredEstates
import Zonecast.Proofs.UpkeepAtRest

namespace Zonecast.Upkeep

open Process Zone

/-! ### The next pass -/

/-- A zone as it is read again; its serial may have changed. -/
structure Rereads (held : Estate) (reading : Detail) : Prop extends Fresh reading held where
  recordSets : ∀ set, set ∈ reading.recordSets ↔ set ∈ held.zone.recordSets

/-- Nothing that upkeep looks at has changed since. -/
structure Unmoved (start held : Estate) : Prop where
  id : held.zone.id = start.zone.id
  holding : held.holding = start.holding
  transferKeys : ∀ name ∈ start.transferKeys, name ∈ held.transferKeys

/-- However its calls are met, a process only reads. -/
def OnlyReads (whole : List (Exchange Upkeep)) (start : Estate) {α : Type}
    (process : Process Upkeep α) (held : Estate) : Prop :=
  process.Upholds (I := Upkeep) (Within whole Meets) (fun request => Call.isWrite request = false)
    (Unmoved start) held

section Next

variable {defaults : Defaults} {reading : Detail} {start held after : Estate}
  {whole : List (Exchange Upkeep)}

/-- A call that reads leaves a zone as it is. -/
theorem serves_reading {zone : String} {request : Backend.Call} {value : Backend.Value request}
    {before after : Holding} (reads : request.isWrite = false)
    (serves : Serves zone request value before after) : after = before := by
  cases request with
  | listKeys other =>
    by_cases own : other = zone
    · subst own
      exact (serves_listKeys.mp serves).2
    · have apart : concernsKeys zone (.listKeys other) = false := beq_eq_false_iff_ne.mpr own
      exact (serves_aside apart (fun _ => rfl) fun _ => rfl).mp serves
  | listZones | getZone | getMetadata | getTransferKey =>
    exact (serves_aside rfl (fun _ => rfl) fun _ => rfl).mp serves
  | _ => cases reads

theorem Unmoved.of_meets {request : Call} {reply : Zonecast.Upkeep.Reply request}
    (unmoved : Unmoved start held) (reads : Call.isWrite request = false)
    (meets : Meets request reply held after) : Unmoved start after := by
  cases meets with
  | served obeys =>
    exact ⟨obeys.id.trans unmoved.id, (serves_reading reads obeys.signing).trans unmoved.holding,
      fun name present =>
        (obeys.transferKeys name).mpr (Or.inl (unmoved.transferKeys name present))⟩
  | refused | read | countedFailure | countedRectifyFailure => exact unmoved

section Rules

variable {α : Type} {request : Backend.Call}

theorem reads_ask_bind (unmoved : Unmoved start held)
    (reads : Call.isWrite (.backend request) = false)
    {next : Backend.Value request → Step α}
    (rest : ∀ value after, Obeys request value held after → Unmoved start after →
      OnlyReads whole start (next value).run after) :
    OnlyReads whole start (ask request >>= next).run held := by
  refine upholds_ask_bind unmoved reads (fun _ _ met => unmoved.of_meets reads met.2)
    fun value after met => ?_
  have still : Unmoved start after := unmoved.of_meets reads met.2
  cases met.2 with
  | served obeys => exact rest value after obeys still

theorem reads_attempt_bind (unmoved : Unmoved start held)
    (reads : Call.isWrite (.backend request) = false)
    {next : Except Backend.Error (Backend.Value request) → Step α}
    (rest : ∀ reply after, Meets (.backend request) reply held after → Unmoved start after →
      OnlyReads whole start (next reply).run after) :
    OnlyReads whole start (attempt request >>= next).run held :=
  ⟨unmoved, reads, fun reply after met => rest reply after met.2 (unmoved.of_meets reads met.2)⟩

theorem reads_attempt_lookup (unmoved : Unmoved start held)
    (reads : Call.isWrite (.backend request) = false)
    {next : Except Backend.Error (Backend.Value request) → Step Unit}
    (present : ∀ value, next (.ok value) = pure ())
    (failed : ∀ error, next (.error error) =
      if error.isNotFound then pure () else throw (.backend error)) :
    OnlyReads whole start (attempt request >>= next).run held := by
  refine reads_attempt_bind unmoved reads fun reply last _ stays => ?_
  obtain ⟨result, done⟩ := done_of_lookup present failed reply
  rw [done]
  exact stays

theorem reads_now_bind (unmoved : Unmoved start held) {next : Instant → Step α}
    (rest : ∀ instant ∈ readings whole, OnlyReads whole start (next instant).run held) :
    OnlyReads whole start (now >>= next).run held := by
  refine ⟨unmoved, rfl, fun reply after met => ?_⟩
  obtain ⟨shown, read⟩ := met
  cases read
  exact rest reply (mem_readings shown)

theorem reads_settle (check : Check) {step : Step Unit}
    (reads : OnlyReads whole start step.run held) :
    OnlyReads whole start (settle check step) held := by
  refine reads.bind fun result after unmoved => ?_
  cases result with
  | ok => exact unmoved
  | error => exact ⟨unmoved, rfl, fun _ _ met => unmoved.of_meets rfl met.2⟩

end Rules

/-- A transfer key that is there is not created again. -/
theorem reads_checkTransferKey (unmoved : Unmoved start held)
    (present : transferKeyName reading.name ∈ start.transferKeys) :
    OnlyReads whole start (checkTransferKey reading).run held := by
  refine reads_attempt_bind unmoved rfl fun reply after met still => ?_
  cases met with
  | served => exact reads_attempt_lookup still rfl (fun _ => rfl) fun _ => rfl
  | refused _ _ error truthful =>
    cases missing : error.isNotFound with
    | true => exact absurd (unmoved.transferKeys _ present) (truthful _ rfl missing)
    | false =>
      dsimp only
      rw [missing]
      exact still

/-- A list that has an active key of each role is that of a zone with such keys. -/
theorem paired_of_found {ring : Keyring} {keys : List SigningKey} (same : keys.Perm ring.keys)
    {anchor active : SigningKey}
    (anchored : keys.find? (fun key => key.active && key.role == .keySigning) = some anchor)
    (signing : keys.find? (fun key => key.active && key.role == .zoneSigning) = some active) :
    Paired ring := by
  have held : ∀ {role : KeyRole} {key : SigningKey},
      keys.find? (fun key => key.active && key.role == role) = some key →
      ∃ key ∈ ring.keys, key.active = true ∧ key.role = role := by
    intro role key found
    have properties := List.find?_some found
    rw [Bool.and_eq_true, beq_iff_eq] at properties
    exact ⟨key, same.mem_iff.mp (List.mem_of_find?_eq_some found), properties⟩
  exact ⟨held anchored, held signing⟩

/-- Keys that are at rest are left alone before the time of their tag. -/
theorem reads_checkSigning (rests : Rests start) (fresh : Fresh reading start)
    (unmoved : Unmoved start held)
    (early : ∀ instant ∈ readings whole, ∀ since, Names start.zone.account since →
      instant.lt since = true) :
    OnlyReads whole start (checkSigning defaults reading).run held := by
  rw [checkSigning_of_signed (fresh.signed.trans rests.marked)]
  refine reads_ask_bind unmoved rfl fun keys after obeys still => ?_
  change List SigningKey at keys
  have own : reading.id = held.zone.id := fresh.id.trans unmoved.id.symm
  obtain ⟨same, _⟩ := serves_listKeys.mp (own ▸ obeys.signing)
  rw [unmoved.holding] at same
  unfold checkListed
  split
  · rename_i anchored signing
    refine reads_now_bind still fun instant shown => ?_
    rcases rests.tagged with ⟨since, names⟩ | unpaired
    · have waits : since.le instant = false := by
        rw [Instant.le, early instant shown since names, Bool.not_true]
      rw [rotate_waiting (fresh.account ▸ names) waits]
      exact still
    · exact absurd (paired_of_found same anchored signing) unpaired
  · exact still

/-- A pass over a zone at rest only reads. -/
theorem reads_pass (rest : AtRest defaults start) (rereads : Rereads start reading)
    (early : ∀ instant ∈ readings whole, ∀ since, Names start.zone.account since →
      instant.lt since = true) : OnlyReads whole start (pass defaults reading) start := by
  have furnished : Furnished defaults reading :=
    rest.furnished.congr rereads.name rereads.recordSets
  have unmoved : Unmoved start start := ⟨rfl, rfl, fun _ => id⟩
  have third : OnlyReads whole start (if defaults.transferKeys then
      settle .transferKey (checkTransferKey reading) else .done ()) start := by
    cases enabled : defaults.transferKeys with
    | true =>
      have present := rest.transferKey enabled
      rw [← rereads.name] at present
      exact reads_settle _ (reads_checkTransferKey unmoved present)
    | false => exact unmoved
  rw [pass_eq, checkAuthority_of_valid furnished.authority,
    checkNameservers_of_valid furnished.nameservers]
  refine third.bind fun _ held still => ?_
  cases enabled : defaults.signing with
  | true =>
    exact reads_settle _ (reads_checkSigning (rest.signing enabled) rereads.toFresh still early)
  | false => exact still

end Next

/-! ### A zone that was just created -/

/-- A zone that is created has the name and the record sets that it was asked for with. -/
def StoresCreation : Exchange Upkeep → Prop
  | ⟨.backend (.createZone creation), .ok zone⟩ =>
    Detail.name zone = creation.name ∧ StoresAll creation.recordSets [] (Detail.recordSets zone)
  | _ => True

section Created

variable {defaults : Defaults} {name : String} {exchanges : List (Exchange Upkeep)}

/-- A pass over a zone whose apex is as expected patches nothing. -/
theorem unpatching_pass {zone : Detail} (furnished : Furnished defaults zone) :
    (pass defaults zone).Only (I := Upkeep) Unpatching := by
  rw [pass_eq, checkAuthority_of_valid furnished.authority,
    checkNameservers_of_valid furnished.nameservers]
  exact only_bind trivial fun _ => only_bind trivial fun _ =>
    only_bind unpatching_transferKey fun _ => unpatching_signing

/-- What is left of loading once a zone was read or created is a pass over it, if there is one. -/
theorem runs_finish {failure : Backend.Error → Directory.Error}
    {reply : Except Backend.Error Detail} {result : Except Directory.Error String}
    (runs : Runs (Directory.finish defaults failure reply) exchanges result) :
    exchanges = [] ∨ ∃ zone, reply = .ok zone ∧ Runs (pass defaults zone) exchanges () := by
  cases reply with
  | error error => exact Or.inl (runs_done.mp runs).1
  | ok zone =>
    obtain ⟨before, _, after, rfl, first, last⟩ := runs_bind.mp runs
    obtain ⟨rfl, _⟩ := runs_done.mp last
    exact Or.inr ⟨zone, rfl, by rwa [List.append_nil]⟩

theorem quiet_of_finish {failure : Backend.Error → Directory.Error}
    {reply : Except Backend.Error Detail} {result : Except Directory.Error String}
    (runs : Runs (Directory.finish defaults failure reply) exchanges result)
    (exchange : Exchange Upkeep) (member : exchange ∈ exchanges) :
    Directory.Quiet exchange.request := by
  rcases runs_finish runs with rfl | ⟨zone, _, passes⟩
  · exact absurd member List.not_mem_nil
  · exact kind_of_mem Directory.quiet_pass passes exchange member

/-- One of some calls that is not the first of them is one of the others. -/
theorem mem_of_mem_cons {exchange first : Exchange Upkeep} (member : exchange ∈ first :: exchanges)
    (other : exchange.request ≠ first.request) : exchange ∈ exchanges :=
  (List.mem_cons.mp member).resolve_left fun same => other (congrArg Exchange.request same)

/-- If loading creates a zone, it does so in its second call, and a pass over the zone follows. -/
theorem created_of_runs {result : Except Directory.Error String} {creation : Creation}
    {created : Except Backend.Error Detail}
    (runs : Runs (Directory.load defaults name) exchanges result)
    (creates : ⟨.backend (.createZone creation), created⟩ ∈ exchanges) :
    ∃ zones reply rest, exchanges = served .listZones zones ::
        ⟨.backend (.createZone (Directory.creation defaults name)), reply⟩ :: rest ∧
      (rest = [] ∨ ∃ zone, reply = .ok zone ∧ Runs (pass defaults zone) rest ()) := by
  rw [Directory.load_eq] at runs
  obtain ⟨listed, rest, rfl, onwards⟩ := runs_call.mp runs
  change Except Backend.Error (List Detail) at listed
  have later := mem_of_mem_cons creates (by intro same; cases same)
  cases listed with
  | error error =>
    obtain ⟨rfl, _⟩ := runs_done.mp onwards
    exact absurd later List.not_mem_nil
  | ok zones =>
    dsimp only at onwards
    split at onwards
    · -- A zone that was there is read, and neither that nor the pass creates any.
      obtain ⟨reply, last, rfl, finishing⟩ := runs_call.mp onwards
      have latest := mem_of_mem_cons later (by intro same; cases same)
      exact (quiet_of_finish finishing _ latest).elim
    · obtain ⟨reply, last, rfl, finishing⟩ := runs_call.mp onwards
      exact ⟨zones, reply, last, rfl, runs_finish finishing⟩

/-- The first pass over a zone that is created patches nothing. -/
theorem unpatched_of_created {result : Except Directory.Error String} {creation : Creation}
    {created : Except Backend.Error Detail}
    (runs : Runs (Directory.load defaults name) exchanges result)
    (creates : ⟨.backend (.createZone creation), created⟩ ∈ exchanges)
    (stored : ∀ exchange ∈ exchanges, StoresCreation exchange) (zone : String)
    (sets : List RecordSet) (reply : Except Backend.Error Unit) :
    ⟨.backend (.patchZone zone sets), reply⟩ ∉ exchanges := by
  intro patches
  obtain ⟨zones, found, rest, rfl, ends⟩ := created_of_runs runs creates
  have later := mem_of_mem_cons patches (by intro same; cases same)
  have latest := mem_of_mem_cons later (by intro same; cases same)
  rcases ends with rfl | ⟨detail, rfl, passes⟩
  · exact absurd latest List.not_mem_nil
  · obtain ⟨named, stores⟩ := stored _ (List.mem_cons_of_mem _ List.mem_cons_self)
    have furnished : Furnished defaults detail := by
      have sent : StoresAll [defaults.authority detail.name 1, defaults.nameservers detail.name] []
          detail.recordSets := by
        rw [named]
        exact stores
      exact furnished_of_storesAll sent
    exact kind_of_mem (unpatching_pass furnished) passes _ latest

end Created

/-! ### Upkeep at rest -/

/-- Upkeep comes to rest in one pass. Whatever keys, account, metadata and transfer keys there are:
if the zone has one SOA set and one NS set at its apex at most, then after a pass over it in which
no call failed, another one, over the zone as it is read again, makes no writing call, whatever
comes of its calls, as long as its clock shows a time before the one that the account then names, if
it names any. And when loading creates a zone, the pass that follows patches none. -/
theorem rests_after_pass (defaults : Defaults) :
    (∀ (before : Estate) (exchanges : List (Exchange Upkeep)) (after : Estate) (again : Detail)
        (later : List (Exchange Upkeep)) (last : Estate),
      Single before.zone.name "SOA" before.zone.recordSets →
      Single before.zone.name "NS" before.zone.recordSets →
      Upkept defaults before exchanges after → Rereads after again →
      Proceeds Meets (pass defaults again) after later last →
      (∀ instant ∈ readings later, ∀ since, Names after.zone.account since →
        instant.lt since = true) →
      writes later = []) ∧
    ∀ (name : String) (exchanges : List (Exchange Upkeep)) (result : Except Directory.Error String)
      (creation : Creation) (created : Except Backend.Error Detail),
      Runs (Directory.load defaults name) exchanges result →
      ⟨.backend (.createZone creation), created⟩ ∈ exchanges →
      (∀ exchange ∈ exchanges, StoresCreation exchange) →
      ∀ (zone : String) (sets : List RecordSet) (reply : Except Backend.Error Unit),
        ⟨.backend (.patchZone zone sets), reply⟩ ∉ exchanges := by
  refine ⟨fun before exchanges after again later last one other upkept rereads proceeds early => ?_,
    fun name exchanges result creation created => unpatched_of_created⟩
  have reads : OnlyReads later after (pass defaults again) after :=
    reads_pass (atRest_of_upkept one other upkept) rereads early
  obtain ⟨_, reading⟩ := reads.of_proceeds proceeds.within
  refine List.filter_eq_nil_iff.mpr fun exchange member => ?_
  rw [reading exchange member]
  exact Bool.false_ne_true

/-! ### A zone that is put in order, and one that is created -/

/-- An unsigned zone with the nameservers of another operator. -/
def driftedZone : Detail := ⟨"test.", "test.", none, some 7, false, some "",
  [⟨"test.", "SOA", 3600, none, [⟨"ns.old.test. admin.old.test. 7 900 1800 6048000 3600", false⟩],
      []⟩,
    ⟨"test.", "NS", 3600, none, [⟨"ns.old.test.", false⟩], []⟩]⟩

/-- The zone after a pass. -/
def repairedZone : Detail := ⟨"test.", "test.", none, some 7, true,
  (signingSettings (.ofMillis 0)).account,
  Backend.applyRecordSets driftedZone.recordSets
    [exampleDefaults.authority "test." 7, exampleDefaults.nameservers "test."]⟩

/-- A store that holds the zone and nothing else. -/
def driftedStore : Backend.Store where
  zones := [("test.", driftedZone)]
  keys := []
  metadata := []
  transferKeys := []
  lastKey := 0

/-- The keys of the zone and its transfer key as they are stored. -/
def storedAnchor : SigningKey := Backend.Store.numbered newKeySigningKey 1
def storedSigner : SigningKey := Backend.Store.numbered newZoneSigningKey 2
def storedTransferKey : TransferKey := ⟨some "test-tsig.", "test-tsig", "hmac-sha256", none⟩

/-- The store after a pass. -/
def repairedStore : Backend.Store where
  zones := [("test.", repairedZone)]
  keys := [("test.", [storedAnchor, storedSigner])]
  metadata := [("test.", signingMetadata)]
  transferKeys := [("test-tsig", storedTransferKey)]
  lastKey := 2

/-- What the stores hold for the upkeep of the zone. -/
def exampleDrifted : Estate := estateOf driftedStore "test." driftedZone
def exampleRepaired : Estate := estateOf repairedStore "test." repairedZone

/-- A pass that has everything to do. -/
def exampleRepairs : List (Exchange Upkeep) :=
  [served (.patchZone "test." [exampleDefaults.authority "test." 7]) (),
    served (.patchZone "test." [exampleDefaults.nameservers "test."]) (),
    refused (.getTransferKey "test-tsig") (.notFound "get_tsig_key"),
    served (.createTransferKey ⟨none, "test-tsig", "hmac-sha256", none⟩) storedTransferKey,
    refused (.getMetadata "test." transferKeysKind) (.notFound "get_metadata"),
    served (.createKey "test." newKeySigningKey) storedAnchor,
    served (.createKey "test." newZoneSigningKey) storedSigner,
    served (.createMetadata "test." signingMetadata) (), clocked (.ofMillis 0),
    served (.updateZone "test." (signingSettings (.ofMillis 0))) (),
    served (.rectifyZone "test.") ()]

theorem runs_exampleRepairs :
    Runs (pass exampleDefaults exampleDrifted.zone) exampleRepairs () := by
  rw [pass_eq, checkAuthority_of_invalid (by decide), checkNameservers_of_invalid (by decide)]
  exact .call (.call (.call (.call (.call (.call (.call (.call (.call (.call (.call
    (.done ())))))))))))

/-- The store answers every call of the pass so, and holds the zone in order after it. -/
theorem proceeds_exampleRepairs :
    Proceeds Meets (pass exampleDefaults exampleDrifted.zone) exampleDrifted exampleRepairs
      exampleRepaired := by
  rw [pass_eq, checkAuthority_of_invalid (by decide), checkNameservers_of_invalid (by decide)]
  refine proceeds_of_serve (by decide) ⟨rfl, by decide⟩ rfl rfl ?_
  refine proceeds_of_serve (by decide) ⟨rfl, by decide⟩ rfl rfl ?_
  refine proceeds_of_serve (by decide) trivial rfl rfl ?_
  refine proceeds_of_serve (by decide) trivial rfl rfl ?_
  refine proceeds_of_serve (by decide) rfl rfl rfl ?_
  refine proceeds_of_serve (by decide) rfl rfl rfl ?_
  refine proceeds_of_serve (by decide) rfl rfl rfl ?_
  refine proceeds_of_serve (by decide) rfl rfl rfl ?_
  refine .call (.read _ _) ?_
  refine proceeds_of_serve (by decide) rfl rfl rfl ?_
  refine proceeds_of_serve (by decide) rfl rfl rfl ?_
  exact .left _ _

/-- A pass over the zone a second later, with a new serial. A call fails. -/
def exampleAgain : Detail := { exampleRepaired.zone with serial := some 8 }

def exampleReads : List (Exchange Upkeep) :=
  [refused (.getTransferKey "test-tsig") (.transport "get_tsig_key"),
    ⟨.countFailure .transferKey, ()⟩,
    served (.listKeys "test.") [storedAnchor, storedSigner], clocked (.ofMillis 1000)]

theorem proceeds_exampleReads :
    Proceeds Meets (pass exampleDefaults exampleAgain) exampleRepaired exampleReads
      exampleRepaired := by
  rw [pass_eq, checkAuthority_of_valid (by decide), checkNameservers_of_valid (by decide)]
  refine .call (.refused _ _ _ (by rintro _ _ ⟨⟩)) ?_
  refine .call (.countedFailure _ _) ?_
  refine proceeds_of_serve (by decide) rfl rfl rfl ?_
  exact .call (.read _ _) (.left _ _)

/-- The zone as it is created. -/
def exampleCreated : Detail := Backend.Store.created (Directory.creation exampleDefaults "test.")

/-- Loading a zone that is not there yet. Its transfer key cannot be looked up, nor can it be
signed. -/
def exampleLoading : List (Exchange Upkeep) :=
  [served .listZones [], served (.createZone (Directory.creation exampleDefaults "test."))
      exampleCreated,
    refused (.getTransferKey "test-tsig") (.transport "get_tsig_key"),
    ⟨.countFailure .transferKey, ()⟩,
    refused (.createKey "test." newKeySigningKey) (.transport "create_cryptokey"),
    ⟨.countFailure .signing, ()⟩]

theorem runs_exampleLoading :
    Runs (Directory.load exampleDefaults "test.") exampleLoading (.ok "test.") := by
  rw [Directory.load_eq]
  refine .call (.call ?_)
  show Runs ((pass exampleDefaults exampleCreated).bind fun _ => .done (Except.ok "test.")) _ _
  rw [pass_eq, checkAuthority_of_valid (by decide), checkNameservers_of_valid (by decide)]
  exact .call (.call (.call (.call (.done _))))

/-- Everything was wrong with a zone, and one pass has put it in order; and a zone that has just
been created has its SOA and NS sets in order, though nothing else. -/
theorem rests_exampleDrifted :
    Single "test." "SOA" exampleDrifted.zone.recordSets ∧
      Single "test." "NS" exampleDrifted.zone.recordSets ∧
      Upkept exampleDefaults exampleDrifted exampleRepairs exampleRepaired ∧
      Rereads exampleRepaired exampleAgain ∧
      Proceeds Meets (pass exampleDefaults exampleAgain) exampleRepaired exampleReads
        exampleRepaired ∧
      (∀ instant ∈ readings exampleReads, ∀ since, Names exampleRepaired.zone.account since →
        instant.lt since = true) ∧
      writes exampleReads = [] ∧
      Runs (Directory.load exampleDefaults "test.") exampleLoading (.ok "test.") ∧
      (∀ exchange ∈ exampleLoading, StoresCreation exchange) ∧
      ∀ zone sets reply, ⟨.backend (.patchZone zone sets), reply⟩ ∉ exampleLoading := by
  have one : Single "test." "SOA" exampleDrifted.zone.recordSets := by decide
  have other : Single "test." "NS" exampleDrifted.zone.recordSets := by decide
  have upkept : Upkept exampleDefaults exampleDrifted exampleRepairs exampleRepaired :=
    ⟨runs_exampleRepairs, proceeds_exampleRepairs, by decide,
      fun instant shown _ _ => by cases List.mem_singleton.mp shown; decide,
      fun instant shown _ _ => by cases List.mem_singleton.mp shown; decide⟩
  have rereads : Rereads exampleRepaired exampleAgain :=
    ⟨⟨⟨rfl, rfl, rfl⟩, rfl⟩, fun _ => Iff.rfl⟩
  have early : ∀ instant ∈ readings exampleReads, ∀ since,
      Names exampleRepaired.zone.account since → instant.lt since = true := by
    intro instant shown since names
    obtain rfl : instant = .ofMillis 1000 := List.mem_singleton.mp shown
    have tagged : Names exampleRepaired.zone.account _ :=
      Or.inl (Rotation.ofAccount_expiring (by decide))
    rw [names.unique tagged]
    decide
  have stored : ∀ exchange ∈ exampleLoading, StoresCreation exchange := by
    refine List.forall_mem_cons.mpr ⟨trivial, List.forall_mem_cons.mpr ⟨⟨rfl, ?_⟩, ?_⟩⟩
    · exact storesAll_applyRecordSets (List.forall_mem_nil _) (by decide)
    · exact List.forall_mem_cons.mpr ⟨trivial, List.forall_mem_cons.mpr ⟨trivial,
        List.forall_mem_cons.mpr ⟨trivial, List.forall_mem_singleton.mpr trivial⟩⟩⟩
  obtain ⟨repeated, created⟩ := rests_after_pass exampleDefaults
  exact ⟨one, other, upkept, rereads, proceeds_exampleReads, early,
    repeated _ _ _ _ _ _ one other upkept rereads proceeds_exampleReads early,
    runs_exampleLoading, stored, created _ _ _ _ _ runs_exampleLoading
      (List.mem_cons_of_mem _ List.mem_cons_self) stored⟩

end Zonecast.Upkeep
