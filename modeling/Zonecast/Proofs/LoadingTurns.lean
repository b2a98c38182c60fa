/-
How a process that resolves a zone name takes its turn. It lists the zones only once it stands at
the front of the queue of the name, and creates a zone only in the next call after a list that
holds none of that name. It leaves the front only after the id that it loaded is remembered, and it
ends only with an id that it was shown for the name, or found remembered for it.

This is said of what the process does next and, for every reply it may be given, of all that
follows. What the process may take for granted is that others leave the front to it while it has
it; that is seen to where many processes meet.
-/
import Zonecast.Directory.Resolve
import Zonecast.Proofs.Names
import Zonecast.Proofs.RememberedIds
import Zonecast.Proofs.UpkeepCalls

namespace Zonecast.Directory

open Process Zone Upkeep

/-! ### Entries -/

/-- A zone as far as resolving goes. -/
structure Entry where
  id : String
  name : String
  deriving DecidableEq

def entryOf (zone : Detail) : Entry := ⟨zone.id, zone.name⟩

/-- The id is that of a zone of this name, in any spelling. -/
def Shows (shown : List Entry) (name id : String) : Prop :=
  ∃ entry ∈ shown, entry.id = id ∧ Name.bare entry.name = Name.bare name

theorem Shows.later {shown later : List Entry} {name id : String} (shows : Shows shown name id)
    (more : shown ⊆ later) : Shows later name id := by
  obtain ⟨entry, member, same⟩ := shows
  exact ⟨entry, more member, same⟩

/-! ### Turns -/

/-- How far a process has come with its turn: it has none; it is at the front of the queue; or it is
there and knows from a list just now that there is no zone of its name. -/
inductive Hold
  | outside
  | inside
  | absent

/-- What is left of it with a call that tells nothing of the turn. -/
def Hold.relax : Hold → Hold
  | .outside => .outside
  | .inside | .absent => .inside

/-- What a process that resolves a name may call for. -/
def Allowed (name : String) (hold : Hold) (shown : List Entry) : CachedCall Upkeep.Call → Prop
  | .lookup key | .enter key | .leave key => key = name
  | .store key id => key = name ∧ Shows shown name id
  | .load (.backend .listZones) => hold ≠ .outside
  | .load (.backend (.createZone creation)) => hold = .absent ∧ creation.name = name
  | .load _ => True

/-- How far it has come after a call. -/
def holdAfter (name : String) (hold : Hold) :
    (request : CachedCall Upkeep.Call) → (Cached Upkeep).Reply request → Hold
  | .enter _, _ => .inside
  | .leave _, _ => .outside
  | .load (.backend .listZones), .ok zones =>
    if List.any zones fun zone => Name.bare zone.name == Name.bare name then .inside else .absent
  | _, _ => hold.relax

/-- What it learns from a reply: which id is remembered, which zones there are, under which id a
zone is read. -/
def Tells (shown : List Entry) :
    (request : CachedCall Upkeep.Call) → (Cached Upkeep).Reply request → Prop
  | .lookup key, some id => Shows shown key id
  | .load (.backend .listZones), .ok zones => List.map entryOf zones ⊆ shown
  | .load (.backend (.getZone id)), .ok zone => Detail.id zone = id
  | .load (.backend (.createZone creation)), .ok zone =>
    entryOf zone ∈ shown ∧ Name.bare (Detail.name zone) = Name.bare creation.name
  | _, _ => True

/-- The process takes its turn in order, whatever it is told, and ends with an id that was shown to
it. -/
def Careful (name : String) : Process (Cached Upkeep) (Except Error String) → Hold →
    List Entry → Prop
  | .done result, _, shown => ∀ id, result = .ok id → Shows shown name id
  | .call request next, hold, shown => Allowed name hold shown request ∧
    ∀ reply later, shown ⊆ later → Tells later request reply →
      Careful name (next reply) (holdAfter name hold request reply) later

theorem Allowed.later {name : String} {hold : Hold} {shown later : List Entry}
    {request : CachedCall Upkeep.Call} (allowed : Allowed name hold shown request)
    (more : shown ⊆ later) : Allowed name hold later request := by
  cases request with
  | store key id => exact ⟨allowed.1, allowed.2.later more⟩
  | load request =>
    cases request with
    | backend request => cases request <;> exact allowed
    | _ => exact allowed
  | _ => exact allowed

/-- A process that takes its turn in order does so however many zones are shown to others. -/
theorem Careful.later {name : String} {process : Process (Cached Upkeep) (Except Error String)}
    {hold : Hold} {shown later : List Entry} (careful : Careful name process hold shown)
    (more : shown ⊆ later) : Careful name process hold later := by
  cases process with
  | done result => exact fun id same => (careful id same).later more
  | call request next =>
    exact ⟨careful.1.later more, fun reply last further tells =>
      careful.2 reply last (List.Subset.trans more further) tells⟩

/-! ### Upkeep -/

/-- A call that neither lists nor creates zones. -/
def Quiet : Upkeep.Call → Prop
  | .backend .listZones | .backend (.createZone _) => False
  | _ => True

section Upkeep

variable {defaults : Defaults} {zone : Detail}

theorem quiet_of_makes {check : Check} {request : Upkeep.Call} (makes : check.Makes request) :
    Quiet request := by
  cases request with
  | backend request => cases request <;> first | trivial | cases check <;> exact makes
  | _ => trivial

/-- Upkeep neither lists nor creates zones. -/
theorem quiet_pass : (pass defaults zone).Only (I := Upkeep) Quiet :=
  only_pass (fun _ => trivial) fun _ _ => quiet_of_makes

end Upkeep

/-! ### Resolving -/

section Turns

variable {defaults : Defaults} {name : String} {shown : List Entry}

/-- Quiet calls are allowed, and the front is kept meanwhile. -/
theorem careful_of_quiet {α : Type} {process : Process Upkeep α}
    {next : α → Process (Cached Upkeep) (Except Error String)}
    (quiet : process.Only (I := Upkeep) Quiet)
    (rest : ∀ value later, shown ⊆ later → Careful name (next value) .inside later) :
    Careful name ((process.embed (loading Upkeep)).bind next) .inside shown := by
  -- On the process, for every list of shown zones: others may be shown more between two calls.
  induction process generalizing shown with
  | done value => exact rest value shown (List.Subset.refl _)
  | call request more inductionHypothesis =>
    have allowed : Allowed name .inside shown (.load request) := by
      cases request with
      | backend request => cases request <;> first | exact quiet.1.elim | trivial
      | _ => trivial
    refine ⟨allowed, fun reply later further _ => ?_⟩
    have inside : holdAfter name .inside (.load request) reply = .inside := by
      cases request with
      | backend request => cases request <;> first | exact quiet.1.elim | rfl
      | _ => rfl
    show Careful name (((more reply).embed (loading Upkeep)).bind next)
      (holdAfter name .inside (.load request) reply) later
    rw [inside]
    exact inductionHypothesis _ (quiet.2 reply) fun value last still =>
      rest value last (List.Subset.trans further still)

section Rules

/-- After a list the process knows whether there is a zone of its name. -/
theorem careful_listZones
    {next : Except Backend.Error (List Detail) → Process (Cached Upkeep) (Except Error String)}
    (failed : ∀ error later, shown ⊆ later → Careful name (next (.error error)) .inside later)
    (rest : ∀ zones later, shown ⊆ later → zones.map entryOf ⊆ later →
      Careful name (next (.ok zones))
        (if zones.any fun zone => Name.bare zone.name == Name.bare name then .inside
          else .absent) later) :
    Careful name (.call (I := Cached Upkeep) (.load (.backend .listZones)) next) .inside shown := by
  refine ⟨nofun, fun reply later more tells => ?_⟩
  change Except Backend.Error (List Detail) at reply
  cases reply with
  | error error => exact failed error later more
  | ok zones => exact rest zones later more tells

theorem careful_getZone {id : String}
    {next : Except Backend.Error Detail → Process (Cached Upkeep) (Except Error String)}
    (rest : ∀ reply later, shown ⊆ later → (∀ zone, reply = .ok zone → zone.id = id) →
      Careful name (next reply) .inside later) :
    Careful name (.call (I := Cached Upkeep) (.load (.backend (.getZone id))) next) .inside
      shown := by
  refine ⟨trivial, fun reply later more tells => ?_⟩
  change Except Backend.Error Detail at reply
  refine rest reply later more ?_
  rintro zone rfl
  exact tells

/-- A process creates a zone if it knows that there is none of its name. -/
theorem careful_createZone {creation : Creation} (named : creation.name = name)
    {next : Except Backend.Error Detail → Process (Cached Upkeep) (Except Error String)}
    (rest : ∀ reply later, shown ⊆ later → (∀ zone, reply = .ok zone →
      entryOf zone ∈ later ∧ Name.bare zone.name = Name.bare name) →
      Careful name (next reply) .inside later) :
    Careful name (.call (I := Cached Upkeep) (.load (.backend (.createZone creation))) next)
      .absent shown := by
  refine ⟨⟨rfl, named⟩, fun reply later more tells => ?_⟩
  change Except Backend.Error Detail at reply
  refine rest reply later more ?_
  rintro zone rfl
  exact named ▸ tells

end Rules

/-- What is left of loading once the zone is read or created. -/
def finish (defaults : Defaults) (failure : Backend.Error → Error) :
    Except Backend.Error Detail → Process Upkeep (Except Error String)
  | .ok zone => (pass defaults zone).bind fun _ => .done (.ok zone.id)
  | .error error => .done (.error (failure error))

theorem load_eq (defaults : Defaults) (name : String) :
    load defaults name = .call (I := Upkeep) (.backend .listZones) fun
      reply : Except Backend.Error (List Detail) =>
      match reply with
      | .error error => .done (.error (.unavailable name error))
      | .ok zones =>
        match zones.find? fun zone => Name.bare zone.name == Name.bare name with
        | some listed => .call (I := Upkeep) (.backend (.getZone listed.id))
            (finish defaults (.unavailable name))
        | none => .call (I := Upkeep) (.backend (.createZone (creation defaults name)))
            (finish defaults (.notCreated name)) := by
  refine congrArg (Process.call (I := Upkeep) (.backend .listZones)) (funext fun reply => ?_)
  cases reply with
  | error error => rfl
  | ok zones =>
    dsimp only [Process.bind, Except.mapError, ExceptT.bindCont]
    cases zones.find? fun zone => Name.bare zone.name == Name.bare name with
    | none =>
      refine congrArg (Process.call (I := Upkeep) (.backend (.createZone _)))
        (funext fun reply => ?_)
      cases reply <;> rfl
    | some listed =>
      refine congrArg (Process.call (I := Upkeep) (.backend (.getZone listed.id)))
        (funext fun reply => ?_)
      cases reply <;> rfl

section Loading

variable {next : Except Error String → Process (Cached Upkeep) (Except Error String)}

/-- Upkeep comes between a zone and the id that is remembered for it. -/
theorem careful_finish {failure : Backend.Error → Error} {reply : Except Backend.Error Detail}
    (own : ∀ zone, reply = .ok zone → Shows shown name zone.id)
    (found : ∀ id later, shown ⊆ later → Shows later name id →
      Careful name (next (.ok id)) .inside later)
    (failed : ∀ error, Careful name (next (.error error)) .inside shown) :
    Careful name (((finish defaults failure reply).embed (loading Upkeep)).bind next) .inside
      shown := by
  cases reply with
  | error error => exact failed (failure error)
  | ok zone =>
    rw [finish, embed_bind, Process.bind_assoc]
    exact careful_of_quiet quiet_pass fun _ later more =>
      found zone.id later more ((own zone rfl).later more)

/-- A process at the front of its queue loads its zone in order. -/
theorem careful_load
    (found : ∀ id later, shown ⊆ later → Shows later name id →
      Careful name (next (.ok id)) .inside later)
    (failed : ∀ error later, shown ⊆ later → Careful name (next (.error error)) .inside later) :
    Careful name (((load defaults name).embed (loading Upkeep)).bind next) .inside shown := by
  rw [load_eq]
  refine careful_listZones (fun error later more => failed _ later more)
    fun zones later more tells => ?_
  dsimp only [loading]
  cases listing : zones.find? fun zone => Name.bare zone.name == Name.bare name with
  | some listed =>
    have member : listed ∈ zones := List.mem_of_find?_eq_some listing
    have named : (Name.bare listed.name == Name.bare name) = true :=
      List.find?_some (p := fun zone : Detail => Name.bare zone.name == Name.bare name) listing
    have shows : Shows later name listed.id :=
      ⟨entryOf listed, tells (List.mem_map_of_mem member), rfl, eq_of_beq named⟩
    have there : (zones.any fun zone => Name.bare zone.name == Name.bare name) = true :=
      List.any_eq_true.mpr ⟨listed, member, named⟩
    rw [if_pos there]
    refine careful_getZone fun reply last further own => ?_
    have since : shown ⊆ last := List.Subset.trans more further
    refine careful_finish (fun zone same => ?_)
      (fun id final still => found id final (List.Subset.trans since still))
      fun error => failed _ _ since
    rw [own zone same]
    exact shows.later further
  | none =>
    have none : ¬(zones.any fun zone => Name.bare zone.name == Name.bare name) = true := by
      rw [List.any_eq_true]
      rintro ⟨zone, member, named⟩
      exact List.find?_eq_none.mp listing zone member named
    -- From here to the next call the process knows that there is no zone of its name.
    rw [if_neg none]
    refine careful_createZone rfl fun reply last further own => ?_
    have since : shown ⊆ last := List.Subset.trans more further
    refine careful_finish (fun zone same => ?_)
      (fun id final still => found id final (List.Subset.trans since still))
      fun error => failed _ _ since
    obtain ⟨member, named⟩ := own zone same
    exact ⟨_, member, rfl, named⟩

end Loading

theorem careful_depart {hold : Hold} {result : Except Error String}
    (own : ∀ id, result = .ok id → Shows shown name id) :
    Careful name (depart name result) hold shown :=
  ⟨rfl, fun _ _ more _ id same => (own id same).later more⟩

theorem careful_loadInTurn :
    Careful name ((loadInTurn name (load defaults name)).bind (depart name)) .inside shown := by
  rw [loadInTurn_eq]
  refine ⟨rfl, fun reply later more tells => ?_⟩
  change Option String at reply
  cases reply with
  | some id =>
    -- Another process remembered it while this one waited.
    refine careful_depart fun other same => ?_
    obtain rfl := Except.ok.inj same
    exact tells
  | none =>
    show Careful name ((((load defaults name).embed (loading Upkeep)).bind (remember name)).bind
      (depart name)) .inside later
    rw [Process.bind_assoc]
    refine careful_load (fun id last _ shows => ⟨⟨rfl, shows⟩, fun _ final further _ => ?_⟩)
      fun error last _ => careful_depart fun _ same => nomatch same
    refine careful_depart fun other same => ?_
    obtain rfl := Except.ok.inj same
    exact shows.later further

/-- Resolving a name takes its turn in order. -/
theorem careful_resolve (asked : String) :
    Careful (Name.canonical asked) (resolve defaults asked) .outside shown := by
  refine ⟨rfl, fun reply later more tells => ?_⟩
  change Option String at reply
  cases reply with
  | some id =>
    intro other same
    obtain rfl := Except.ok.inj same
    exact tells
  | none => exact ⟨rfl, fun _ _ _ _ => careful_loadInTurn⟩

end Turns

end Zonecast.Directory
