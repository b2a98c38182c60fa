/-
What a commit does to the backend before its patch. Resolving a zone may create it and run upkeep on
it, and each of these calls may fail, after it was carried out or before. Whatever comes of them,
the records that are not at the zone's apex stay as they are: a zone is created only where there is
none, with record sets at its apex, and upkeep sends record sets at the apex of the zone that was
read.

A statement about every moment of a process is shown along the process: it holds where the process
stands, and after whatever comes of its next call it holds of the rest.
-/
import Zonecast.Proofs.AppliedSets
import Zonecast.Proofs.StoredKeys
import Zonecast.Proofs.UnswayedCommits

namespace Zonecast.Writer

open Backend Process Upkeep Zone

/-! ### Records beside the apex -/

/-- The record set is not at the apex of this zone. -/
def isBeside (zone : String) (set : RecordSet) : Bool :=
  Name.bare set.name != Name.bare zone

/-- The record sets that a store holds under a zone id and that are not at the apex of this zone. -/
def besideApex (zone : String) (store : Store) (id : String) : List RecordSet :=
  (((store.zones.get? id).map (·.recordSets)).getD []).filter (isBeside zone)

/-- A call that does not create zones, and sends record sets at the apex of this zone only. -/
def Apical (zone : String) : Backend.Call → Prop
  | .createZone _ => False
  | .patchZone _ sets => ∀ set ∈ sets, Name.bare set.name = Name.bare zone
  | _ => True

section Store

variable {zone id : String} {store after : Store}

/-- Sets at the apex leave the others as they are. -/
theorem filter_applied {stored sets : List RecordSet}
    (apical : ∀ set ∈ sets, Name.bare set.name = Name.bare zone) :
    (applyRecordSets stored sets).filter (isBeside zone) = stored.filter (isBeside zone) :=
  filter_applyRecordSets (fun name _ => Name.bare name != Name.bare zone) stored sets
    fun set member => bne_eq_false_iff_eq.mpr (apical set member)

theorem besideApex_of_zones (same : after.zones = store.zones) :
    besideApex zone after id = besideApex zone store id := by
  unfold besideApex
  rw [same]

/-- Changing a zone other than beside the apex. -/
theorem besideApex_changeZone {name : String} {change : Detail → Detail}
    (same : ∀ detail : Detail, (change detail).recordSets.filter (isBeside zone) =
      detail.recordSets.filter (isBeside zone)) :
    besideApex zone (store.changeZone name change) id = besideApex zone store id := by
  unfold besideApex
  by_cases own : name = id
  · subst own
    rw [get?_changeZone]
    cases store.zones.get? name with
    | none => rfl
    | some detail => exact same detail
  · unfold Store.changeZone
    cases store.zones.get? name with
    | none => rfl
    | some detail =>
      dsimp only
      rw [Table.get?_put_other _ _ own]

theorem besideApex_update {operation name : String} {change : Detail → Detail}
    {reply : Except Backend.Error Unit}
    (same : ∀ detail : Detail, (change detail).recordSets.filter (isBeside zone) =
      detail.recordSets.filter (isBeside zone))
    (updated : store.update operation name change = (reply, after)) :
    besideApex zone after id = besideApex zone store id := by
  unfold Store.update at updated
  split at updated
  · injection updated with _ changed
    rw [← changed]
    exact besideApex_changeZone same
  · injection updated with _ unchanged
    rw [unchanged]

/-- Whatever an apical call does leaves the records beside the apex as they are. -/
theorem besideApex_of_serve {request : Backend.Call}
    {reply : Except Backend.Error (Backend.Value request)} (apical : Apical zone request)
    (served : store.serve request = (reply, after)) :
    besideApex zone after id = besideApex zone store id := by
  cases request with
  | createZone => exact apical.elim
  | patchZone name sets => exact besideApex_update (fun _ => filter_applied apical) served
  | updateZone name settings =>
    have account : ∀ detail : Detail,
        ({ detail with account := settings.account.or detail.account } : Detail).recordSets.filter
          (isBeside zone) = detail.recordSets.filter (isBeside zone) :=
      fun _ => rfl
    exact besideApex_update account served
  | createKey name key =>
    injection served with _ same
    rw [← same]
    exact besideApex_changeZone fun _ => rfl
  | setKeyActive name number active =>
    refine besideApex_of_zones ?_
    unfold Store.serve at served
    dsimp only at served
    split at served <;> · injection served with _ same; rw [← same]
  | deleteKey name number =>
    injection served with _ same
    refine besideApex_of_zones ?_
    rw [← same]
    split <;> rfl
  | createMetadata name metadata =>
    injection served with _ same
    refine besideApex_of_zones ?_
    rw [← same]
    unfold Store.addMetadata
    split <;> rfl
  | createTransferKey key =>
    injection served with _ same
    rw [← same]
    rfl
  | listZones | getZone | rectifyZone | listKeys | getMetadata | getTransferKey =>
    injection served with _ same
    rw [same]

/-- Creating a zone where there is none. -/
theorem besideApex_created {creation : Creation} {reply : Except Backend.Error Detail}
    (apical : ∀ set ∈ creation.recordSets, Name.bare set.name = Name.bare zone)
    (none : store.zones.get? creation.name = none)
    (served : store.serve (.createZone creation) = (reply, after)) :
    besideApex zone after id = besideApex zone store id := by
  injection served with _ same
  rw [← same]
  unfold besideApex
  by_cases own : creation.name = id
  · subst own
    rw [Table.get?_put, none]
    exact filter_applied apical
  · rw [Table.get?_put_other _ _ own]

end Store

/-! ### What comes of calls -/

/-- A call of a commit that goes to the backend. -/
def ReachesBackend : CommitCall → Prop
  | .patch _ _ | .directory (.load (.backend _)) => True
  | _ => False

/-- A call of a commit, its reply, and the backend's store before and after. A call to the backend
is carried out and answered, or it fails; one that fails was carried out or not, except for the
patch of the commit itself, which has no effect if it fails. -/
inductive Effect : (request : CommitCall) → Commit.Reply request → Store → Store → Prop
  | elsewhere {request : CommitCall} (reply : Commit.Reply request) (store : Store)
      (elsewhere : ¬ReachesBackend request) : Effect request reply store store
  | served {request : Backend.Call} {value : Backend.Value request} {store after : Store}
      (served : store.serve request = (.ok value, after)) :
      Effect (.directory (.load (.backend request))) (.ok value) store after
  | lost {request : Backend.Call} {reply : Except Backend.Error (Backend.Value request)}
      {store after : Store} (error : Backend.Error)
      (served : store.serve request = (reply, after)) :
      Effect (.directory (.load (.backend request))) (.error error) store after
  | refused (request : Backend.Call) (error : Backend.Error) (store : Store) :
      Effect (.directory (.load (.backend request))) (.error error) store store
  | patched {zone : String} {sets : List RecordSet} {store after : Store}
      (served : store.serve (.patchZone zone sets) = (.ok (), after)) :
      Effect (.patch zone sets) (.ok ()) store after
  | unpatched (zone : String) (sets : List RecordSet) (error : Backend.Error) (store : Store) :
      Effect (.patch zone sets) (.error error) store store

/-- What comes of some calls, one after the other. -/
inductive Effects : List (Exchange Commit) → Store → Store → Prop
  | none (store : Store) : Effects [] store store
  | next {request : CommitCall} {reply : Commit.Reply request} {rest : List (Exchange Commit)}
      {store between after : Store} (first : Effect request reply store between)
      (others : Effects rest between after) : Effects (⟨request, reply⟩ :: rest) store after

/-- The patch of the commit was taken. -/
def IsTaken (exchange : Exchange Commit) : Prop :=
  ∃ zone sets, exchange = (⟨.patch zone sets, .ok ()⟩ : Exchange Commit)

/-! ### Moments of a process -/

section Moments

variable {α β : Type} {always : Store → Prop} {ends : α → Store → Prop} {store after : Store}

/-- Whatever comes of its calls, until the patch is taken a statement holds of the store at every
moment of the process, and another of its value and the store once it has ended. -/
def Guards (always : Store → Prop) (ends : α → Store → Prop) : Process Commit α → Store → Prop
  | .done value, store => always store ∧ ends value store
  | .call request next, store =>
    always store ∧ ∀ reply after, Effect request reply store after → ¬IsTaken ⟨request, reply⟩ →
      Guards always ends (next reply) after

theorem Guards.mono {wider : Store → Prop} {other : α → Store → Prop} {process : Process Commit α}
    (guards : Guards always ends process store) (weaker : ∀ store, always store → wider store)
    (further : ∀ value store, ends value store → other value store) :
    Guards wider other process store := by
  induction process generalizing store with
  | done value => exact ⟨weaker _ guards.1, further _ _ guards.2⟩
  | call request next inductionHypothesis =>
    exact ⟨weaker _ guards.1, fun reply after effect untaken =>
      inductionHypothesis reply (guards.2 reply after effect untaken)⟩

theorem Guards.bind {process : Process Commit α} {next : α → Process Commit β}
    {last : β → Store → Prop} (guards : Guards always ends process store)
    (rest : ∀ value after, ends value after → Guards always last (next value) after) :
    Guards always last (process.bind next) store := by
  induction process generalizing store with
  | done value => exact rest value store guards.2
  | call request more inductionHypothesis =>
    exact ⟨guards.1, fun reply after effect untaken =>
      inductionHypothesis reply (guards.2 reply after effect untaken)⟩

/-- A call that does not go to the backend leaves it as it is. -/
theorem eq_of_elsewhere {request : CommitCall} {reply : Commit.Reply request}
    (effect : Effect request reply store after) (elsewhere : ¬ReachesBackend request) :
    after = store := by
  cases effect with
  | elsewhere => rfl
  | served | lost | refused | patched | unpatched => exact absurd trivial elsewhere

theorem guards_elsewhere {request : CommitCall} {next : Commit.Reply request → Process Commit α}
    (elsewhere : ¬ReachesBackend request) (here : always store)
    (rest : ∀ reply, Guards always ends (next reply) store) :
    Guards always ends (.call (I := Commit) request next) store :=
  ⟨here, fun reply _ effect _ => (eq_of_elsewhere effect elsewhere).symm ▸ rest reply⟩

/-- What every call of a process keeps holds at every moment of it. -/
theorem guards_of_only {kind : CommitCall → Prop} {process : Process Commit α}
    (only : process.Only kind) (keeps : ∀ request, kind request → ∀ reply store after,
      Effect request reply store after → always store → always after) (here : always store) :
    Guards always (fun _ => always) process store := by
  induction process generalizing store with
  | done value => exact ⟨here, here⟩
  | call request next inductionHypothesis =>
    exact ⟨here, fun reply after effect _ =>
      inductionHypothesis reply (only.2 reply) (keeps _ only.1 _ _ _ effect here)⟩

/-- Along a path, at each moment of it. -/
theorem Guards.along {process : Process Commit α} {made rest : List (Exchange Commit)} {result : α}
    (guards : Guards always ends process store) (run : Runs process (made ++ rest) result)
    (effects : Effects made store after) (untaken : ∀ exchange ∈ made, ¬IsTaken exchange) :
    always after := by
  induction process generalizing made store with
  | done value =>
    obtain ⟨none, _⟩ := runs_done.mp run
    obtain ⟨rfl, rfl⟩ := List.append_eq_nil_iff.mp none
    cases effects
    exact guards.1
  | call request next inductionHypothesis =>
    cases effects with
    | none => exact guards.1
    | next first others =>
      obtain ⟨reply, path, same, run⟩ := runs_call.mp run
      injection same with head tail
      cases head
      subst tail
      obtain ⟨failed, later⟩ := List.forall_mem_cons.mp untaken
      exact inductionHypothesis _ (guards.2 _ _ first failed) run others later

end Moments

/-! ### Resolving -/

/-- Every zone is kept once and under its own id, and the id that a new zone of this name would get
is not that of a zone of another name. -/
structure WellKept (zone : String) (store : Store) : Prop where
  once : (store.zones.map Prod.fst).Nodup
  own : ∀ entry ∈ store.zones, entry.2.id = entry.1
  apart : ∀ detail, store.zones.get? (Name.canonical zone) = some detail →
    Name.bare detail.name = Name.bare zone

/-- The records beside the apex of a zone are those of another store. -/
def Spared (zone : String) (before store : Store) : Prop :=
  ∀ id, besideApex zone store id = besideApex zone before id

section Resolving

variable {zone : String} {before store after : Store} {defaults : Defaults}

theorem Spared.refl (zone : String) (store : Store) : Spared zone store store :=
  fun _ => rfl

/-- A call of upkeep that keeps to the apex, among the calls of a commit. -/
def KeepsToApex (zone : String) : CommitCall → Prop
  | .directory (.load (.backend request)) => Apical zone request
  | .patch _ _ => False
  | _ => True

/-- What comes of a call that keeps to the apex, done or not. -/
theorem Spared.of_effect {request : CommitCall} {reply : Commit.Reply request}
    (spared : Spared zone before store) (keeps : KeepsToApex zone request)
    (effect : Effect request reply store after) : Spared zone before after := by
  cases effect with
  | elsewhere | refused => exact spared
  | served served | lost error served =>
    exact fun id => (besideApex_of_serve keeps served).trans (spared id)
  | patched | unpatched => exact keeps.elim

/-- Upkeep keeps to the apex of the zone that was read. -/
theorem keepsToApex_pass {detail : Detail} (named : Name.bare detail.name = Name.bare zone) :
    (pass defaults detail).Only (I := Upkeep) fun request =>
      KeepsToApex zone (.directory (.load request)) := by
  have keeps (request : Upkeep.Call) (unpatching : Unpatching request) :
      KeepsToApex zone (.directory (.load request)) := by
    cases request with
    | backend request => cases request <;> first | exact unpatching.elim | trivial
    | _ => trivial
  have apex (set : RecordSet) (own : set.name = Name.canonical detail.name) :
      ∀ one ∈ [set], Name.bare one.name = Name.bare zone := by
    intro one member
    rw [List.mem_singleton.mp member, own, Name.bare_canonical, named]
  rw [pass_eq]
  refine only_bind (only_settle trivial ?_) fun _ => only_bind (only_settle trivial ?_) fun _ =>
    only_bind (only_mono unpatching_transferKey keeps) fun _ => only_mono unpatching_signing keeps
  · unfold checkAuthority
    cases authorityIsValid defaults detail with
    | true => trivial
    | false => exact ⟨apex _ rfl, fun _ => trivial⟩
  · unfold checkNameservers
    cases nameserversAreValid defaults detail with
    | true => trivial
    | false => exact ⟨apex _ rfl, fun _ => trivial⟩

/-- Once the zone is read or created, upkeep is all that is left of loading it. -/
theorem guards_finish {failure : Backend.Error → Directory.Error}
    {reply : Except Backend.Error Detail} (spared : Spared zone before store)
    (named : ∀ detail, reply = .ok detail → Name.bare detail.name = Name.bare zone) :
    Guards (Spared zone before) (fun _ => Spared zone before)
      ((Directory.finish defaults failure reply).embed throughLoader) store := by
  cases reply with
  | error error => exact ⟨spared, spared⟩
  | ok detail =>
    have upkeep : Guards (Spared zone before) (fun _ => Spared zone before)
        ((pass defaults detail).embed throughLoader) store :=
      guards_of_only (only_embed_of (keepsToApex_pass (named detail rfl)) fun _ keeps => keeps)
        (fun _ keeps _ _ _ effect spared => spared.of_effect keeps effect) spared
    exact (embed_bind throughLoader (pass defaults detail) _).symm ▸
      upkeep.bind fun _ after spared => ⟨spared, spared⟩

theorem serve_listZones {reply : Except Backend.Error (List Detail)}
    (served : store.serve .listZones = (reply, after)) : after = store ∧
      reply = .ok (store.zones.sorted.map fun zone => { zone with recordSets := [] }) := by
  injection served with told same
  exact ⟨same.symm, told.symm⟩

theorem serve_getZone {id : String} {reply : Except Backend.Error Detail}
    (served : store.serve (.getZone id) = (reply, after)) : after = store ∧
      ∀ detail, reply = .ok detail → store.zones.get? id = some detail := by
  injection served with told same
  refine ⟨same.symm, fun detail found => ?_⟩
  rw [found] at told
  unfold Store.found at told
  split at told
  · rename_i value held
    injection told with equal
    exact equal ▸ held
  · cases told

/-- A listed zone is read under its id, and has the name that it was listed with. -/
theorem WellKept.named_of_listed (kept : WellKept zone store) {listed detail : Detail}
    (member : listed ∈ store.zones.sorted.map fun zone => { zone with recordSets := [] })
    (found : store.zones.get? listed.id = some detail) : detail.name = listed.name := by
  obtain ⟨whole, there, rfl⟩ := List.mem_map.mp member
  obtain ⟨id, entry⟩ := Table.mem_sorted.mp there
  have own : whole.id = id := kept.own _ entry
  have same := (Table.get?_of_mem kept.once entry).symm.trans (own ▸ found)
  show detail.name = whole.name
  exact congrArg Detail.name (Option.some.inj same).symm

/-- If no zone of a name is listed, none is kept under the id that a new one would get. -/
theorem WellKept.missing_of_unlisted (kept : WellKept zone store)
    (unlisted : (store.zones.sorted.map fun zone => { zone with recordSets := [] }).find?
      (fun detail => Name.bare detail.name == Name.bare (Name.canonical zone)) = none) :
    store.zones.get? (Name.canonical zone) = none := by
  refine Option.eq_none_iff_forall_ne_some.mpr fun detail found => ?_
  have listed := List.mem_map_of_mem (f := fun zone : Detail => { zone with recordSets := [] })
    (Table.mem_sorted.mpr ⟨_, Table.mem_of_get? found⟩)
  refine List.find?_eq_none.mp unlisted _ listed ?_
  rw [Name.bare_canonical]
  exact beq_iff_eq.mpr (kept.apart detail found)

/-- A zone is created with record sets at its apex. -/
theorem apical_creation : ∀ set ∈ (Directory.creation defaults (Name.canonical zone)).recordSets,
    Name.bare set.name = Name.bare zone := by
  have own : Name.bare (Name.canonical (Name.canonical zone)) = Name.bare zone := by
    rw [Name.bare_canonical, Name.bare_canonical]
  exact List.forall_mem_cons.mpr ⟨own, List.forall_mem_cons.mpr ⟨own, nofun⟩⟩

/-- Loading a zone spares the records beside its apex. -/
theorem guards_load (kept : WellKept zone store) :
    Guards (Spared zone store) (fun _ => Spared zone store)
      ((Directory.load defaults (Name.canonical zone)).embed throughLoader) store := by
  have here := Spared.refl zone store
  rw [Directory.load_eq]
  refine ⟨here, fun reply after effect _ => ?_⟩
  change Except Backend.Error (List Detail) at reply
  cases effect with
  | elsewhere _ _ elsewhere => exact absurd trivial elsewhere
  | refused => exact ⟨here, here⟩
  | lost error served =>
    obtain ⟨rfl, _⟩ := serve_listZones served
    exact ⟨here, here⟩
  | served served =>
    obtain ⟨rfl, told⟩ := serve_listZones served
    injection told with told
    subst told
    dsimp only [throughLoader]
    split
    · rename_i listed found
      have member := List.mem_of_find?_eq_some found
      have named := List.find?_some found
      rw [Name.bare_canonical, beq_iff_eq] at named
      refine ⟨here, fun reply after effect _ => ?_⟩
      cases effect with
      | elsewhere _ _ elsewhere => exact absurd trivial elsewhere
      | refused => exact guards_finish here nofun
      | lost error served =>
        obtain ⟨rfl, _⟩ := serve_getZone served
        exact guards_finish here nofun
      | served served =>
        obtain ⟨rfl, told⟩ := serve_getZone served
        refine guards_finish here fun detail same => ?_
        rw [kept.named_of_listed member (told detail same), named]
    · rename_i missing
      have spared {reply : Except Backend.Error Detail} {later : Store}
          (served : after.serve (.createZone (Directory.creation defaults (Name.canonical zone))) =
            (reply, later)) : Spared zone after later := fun id =>
        besideApex_created apical_creation (kept.missing_of_unlisted missing) served
      refine ⟨here, fun reply later effect _ => ?_⟩
      cases effect with
      | elsewhere _ _ elsewhere => exact absurd trivial elsewhere
      | refused => exact guards_finish here nofun
      | lost error served => exact guards_finish (spared served) nofun
      | served served =>
        refine guards_finish (spared served) fun detail same => ?_
        injection served with told
        obtain rfl := Except.ok.inj (told.trans same)
        exact Name.bare_canonical zone

theorem guards_loadInTurn (kept : WellKept zone store) :
    Guards (Spared zone store) (fun _ => Spared zone store)
      ((Directory.loadInTurn (Name.canonical zone)
        (Directory.load defaults (Name.canonical zone))).embed throughDirectory) store := by
  refine guards_elsewhere id (Spared.refl zone store) fun id? => ?_
  change Option String at id?
  cases id? with
  | some id => exact ⟨Spared.refl zone store, Spared.refl zone store⟩
  | none =>
    show Guards _ _ (embed throughDirectory (Process.bind
      (embed (Directory.loading Upkeep) (Directory.load defaults (Name.canonical zone))) _)) store
    rw [embed_bind, embed_throughLoader]
    refine (guards_load kept).bind fun result after spared => ?_
    cases result with
    | error error => exact ⟨spared, spared⟩
    | ok id => exact guards_elsewhere (fun reaches => reaches) spared fun _ => ⟨spared, spared⟩

/-- So does resolving it, whether or not its id is remembered. -/
theorem guards_resolve (kept : WellKept zone store) :
    Guards (Spared zone store) (fun _ => Spared zone store) (resolve defaults zone).run store := by
  have here := Spared.refl zone store
  suffices resolving : Guards (Spared zone store) (fun _ => Spared zone store)
      ((Directory.resolve defaults zone).embed throughDirectory) store from
    resolving.bind fun _ _ spared => ⟨spared, spared⟩
  refine guards_elsewhere id here fun id? => ?_
  change Option String at id?
  cases id? with
  | some id => exact ⟨here, here⟩
  | none =>
    refine guards_elsewhere id here fun _ => ?_
    show Guards _ _ (embed throughDirectory (Process.bind (Directory.loadInTurn _
      (Directory.load defaults (Name.canonical zone))) _)) store
    rw [embed_bind]
    exact (guards_loadInTurn kept).bind fun result after spared =>
      guards_elsewhere (fun reaches => reaches) spared fun _ => ⟨spared, spared⟩

end Resolving

/-! ### Committing -/

section Committing

variable {settings : Settings} {writer : ZoneWriter} {store after : Store}

/-- Lookups are made elsewhere. -/
theorem eq_of_lookup {request : CommitCall} {reply : Commit.Reply request}
    (effect : Effect request reply store after) (lookup : isLookup request) : after = store := by
  refine eq_of_elsewhere effect ?_
  cases request with
  | registry request => exact id
  | directory | patch => exact lookup.elim

/-- Until the patch is taken, publishing spares the records beside the apex. -/
theorem guards_publish (kept : WellKept writer.zone store) :
    Guards (Spared writer.zone store) (fun _ => Spared writer.zone store)
      (writer.publish settings).run store := by
  have here := Spared.refl writer.zone store
  have lookups : Guards (· = store) (fun _ => (· = store))
      (writer.collectChanges settings.ttls).run store :=
    guards_of_only (ZoneWriter.only_collectChanges settings.ttls writer)
      (fun _ lookup _ _ _ effect same => (eq_of_lookup effect lookup).trans same) rfl
  rw [ZoneWriter.publish, run_bind]
  refine (lookups.mono (fun _ same => same ▸ here) fun _ _ same => same).bind ?_
  rintro found _ rfl
  cases found with
  | error error => exact ⟨here, here⟩
  | ok changes =>
    dsimp only
    split
    · exact ⟨here, here⟩
    · rw [run_bind]
      refine (guards_resolve kept).bind fun resolved after spared => ?_
      cases resolved with
      | error error => exact ⟨spared, spared⟩
      | ok zone =>
        refine ⟨spared, fun reply later effect untaken => ?_⟩
        cases effect with
        | elsewhere _ _ elsewhere => exact absurd trivial elsewhere
        | patched => exact absurd ⟨_, _, rfl⟩ untaken
        | unpatched => exact ⟨spared, spared⟩

/-- Until the patch is taken, a commit spares the records beside the apex. -/
theorem spared_of_runs {made rest : List (Exchange Commit)}
    {result : Except Error Unit × ZoneWriter}
    (kept : WellKept writer.zone store)
    (run : Runs (writer.commit settings) (made ++ rest) result)
    (effects : Effects made store after) (untaken : ∀ exchange ∈ made, ¬IsTaken exchange) :
    Spared writer.zone store after := by
  have here := Spared.refl writer.zone store
  have guards : Guards (Spared writer.zone store) (fun _ => Spared writer.zone store)
      (writer.commit settings) store := by
    unfold ZoneWriter.commit
    split
    · exact ⟨here, here⟩
    · exact (guards_publish kept).bind fun _ _ spared => ⟨spared, spared⟩
  exact guards.along run effects untaken

end Committing

end Zonecast.Writer
