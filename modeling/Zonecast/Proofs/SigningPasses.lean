/-
Passes over the signing of a zone that follow one another. A pass works from the zone as it was
just read, nobody else writes to it meanwhile, and a call either succeeds, and has then done what
it was asked, or fails, and has then done nothing.

A zone is taken as the backend holds it as far as signing goes: its keys, whether it is signed and
its account. A pass is recorded by the time that its clock shows, its calls with their replies, and
its result. Paths of a check are taken apart along the way the check is written, in both
directions: what a path must be, and that there is one.
-/
import Zonecast.Proofs.Processes
import Zonecast.Proofs.UnbrokenSigning

namespace Zonecast.Upkeep

open Process Zone

/-! ### Zones as they are held -/

/-- What the backend holds of a zone as far as signing goes. -/
@[ext]
structure Holding where
  ring : Keyring
  signed : Bool
  account : Option String

/-- Whether a zone is signed after a call; its first key makes it so. -/
def signedAfter (zone : String) (request : Backend.Call) (signed : Bool) : Bool :=
  match request with
  | .createKey other _ => signed || other == zone
  | _ => signed

/-- The account of a zone after a call. -/
def accountAfter (zone : String) (request : Backend.Call) (account : Option String) :
    Option String :=
  match request with
  | .updateZone other settings => if other == zone then settings.account.or account else account
  | _ => account

/-- What a call that succeeds makes of a zone. -/
structure Serves (zone : String) (request : Backend.Call) (value : Backend.Value request)
    (before after : Holding) : Prop where
  keys : Takes zone request value before.ring after.ring
  signed : after.signed = signedAfter zone request before.signed
  account : after.account = accountAfter zone request before.account

/-- A call of a pass and its reply, with the zone before and after. -/
inductive Replies (zone : String) (instant : Instant) :
    (request : Call) → Zonecast.Upkeep.Reply request → Holding → Holding → Prop
  | served {request : Backend.Call} {value : Backend.Value request} {before after : Holding}
      (serves : Serves zone request value before after) :
    Replies zone instant (.backend request) (.ok value) before after
  | refused (held : Holding) (request : Backend.Call) (error : Backend.Error) :
    Replies zone instant (.backend request) (.error error) held held
  | read (held : Holding) : Replies zone instant .now instant held held
  | countedFailure (held : Holding) (check : Check) :
    Replies zone instant (.countFailure check) () held held
  | countedRectifyFailure (held : Holding) :
    Replies zone instant .countRectifyFailure () held held

/-- The calls of a pass and their replies, one after the other. -/
inductive Answers (zone : String) (instant : Instant) :
    Holding → List (Exchange Upkeep) → Holding → Prop
  | nil (held : Holding) : Answers zone instant held [] held
  | cons {request : Call} {reply : Zonecast.Upkeep.Reply request} {before middle after : Holding}
      {exchanges : List (Exchange Upkeep)}
      (replies : Replies zone instant request reply before middle)
      (rest : Answers zone instant middle exchanges after) :
    Answers zone instant before (⟨request, reply⟩ :: exchanges) after

/-- A path of a process, from a zone to what it makes of it. -/
structure Path (zone : String) (instant : Instant) {α : Type} (process : Process Upkeep α)
    (before : Holding) (exchanges : List (Exchange Upkeep)) (after : Holding) (result : α) :
    Prop where
  runs : Runs process exchanges result
  answers : Answers zone instant before exchanges after

/-! ### Calls -/

/-- A backend call that succeeded. -/
def served (request : Backend.Call) (value : Backend.Value request) : Exchange Upkeep :=
  ⟨.backend request, Except.ok value⟩

/-- A backend call that failed. -/
def refused (request : Backend.Call) (error : Backend.Error) : Exchange Upkeep :=
  ⟨.backend request, Except.error error⟩

/-- A reading of the clock. -/
def clocked (instant : Instant) : Exchange Upkeep :=
  ⟨.now, instant⟩

/-- None of the backend calls failed. -/
def Settled (exchanges : List (Exchange Upkeep)) : Prop :=
  ∀ request error, refused request error ∉ exchanges

theorem refused_ne_served {request other : Backend.Call} {error : Backend.Error}
    {value : Backend.Value other} : refused request error ≠ served other value := by
  intro same
  injection same with call reply
  injection call with equal
  subst equal
  cases eq_of_heq reply

theorem settled_nil : Settled [] :=
  fun _ _ => List.not_mem_nil

theorem settled_served {request : Backend.Call} {value : Backend.Value request}
    {exchanges : List (Exchange Upkeep)} :
    Settled (served request value :: exchanges) ↔ Settled exchanges :=
  forall₂_congr fun _ _ => not_congr (List.mem_cons.trans (or_iff_right refused_ne_served))

theorem settled_clocked {instant : Instant} {exchanges : List (Exchange Upkeep)} :
    Settled (clocked instant :: exchanges) ↔ Settled exchanges := by
  refine forall₂_congr fun _ _ => not_congr (List.mem_cons.trans (or_iff_right fun same => ?_))
  injection same with call
  cases call

theorem not_settled_refused {request : Backend.Call} {error : Backend.Error}
    {exchanges : List (Exchange Upkeep)} : ¬Settled (refused request error :: exchanges) :=
  fun settled => settled request error List.mem_cons_self

section Rules

variable {zone : String} {instant : Instant} {α : Type} {before after : Holding}
  {exchanges : List (Exchange Upkeep)}

theorem path_done {value result : α} :
    Path zone instant (.done value) before exchanges after result ↔
      exchanges = [] ∧ after = before ∧ result = value := by
  constructor
  · rintro ⟨runs, answers⟩
    obtain ⟨rfl, rfl⟩ := runs_done.mp runs
    cases answers
    exact ⟨rfl, rfl, rfl⟩
  · rintro ⟨rfl, rfl, rfl⟩
    exact ⟨.done _, .nil _⟩

/-- A path through a call is its reply and a path through what follows. -/
theorem path_call {request : Call} {next : Zonecast.Upkeep.Reply request → Process Upkeep α}
    {result : α} :
    Path zone instant (.call (I := Upkeep) request next) before exchanges after result ↔
      ∃ reply middle rest, exchanges = ⟨request, reply⟩ :: rest ∧
        Replies zone instant request reply before middle ∧
        Path zone instant (next reply) middle rest after result := by
  constructor
  · rintro ⟨runs, answers⟩
    obtain ⟨reply, rest, rfl, onwards⟩ := runs_call.mp runs
    cases answers with
    | cons replies more => exact ⟨reply, _, rest, rfl, replies, onwards, more⟩
  · rintro ⟨reply, middle, rest, rfl, replies, onwards, more⟩
    exact ⟨.call onwards, .cons replies more⟩

/-- A backend call fails, and that is the end, or it succeeds, and the path goes on. -/
theorem path_ask_bind {request : Backend.Call} {next : Backend.Value request → Step α}
    {result : Except Error α} :
    Path zone instant (ask request >>= next).run before exchanges after result ↔
      (∃ error, exchanges = [refused request error] ∧ after = before ∧
        result = .error (.backend error)) ∨
      ∃ value middle rest, exchanges = served request value :: rest ∧
        Serves zone request value before middle ∧
        Path zone instant (next value).run middle rest after result := by
  rw [run_ask_bind]
  refine path_call.trans ⟨?_, ?_⟩
  · rintro ⟨reply, middle, rest, rfl, replies, onwards⟩
    cases replies with
    | served serves => exact Or.inr ⟨_, middle, rest, rfl, serves, onwards⟩
    | refused _ _ error =>
      obtain ⟨rfl, rfl, rfl⟩ := path_done.mp onwards
      exact Or.inl ⟨error, rfl, rfl, rfl⟩
  · rintro (⟨error, rfl, rfl, rfl⟩ | ⟨value, middle, rest, rfl, serves, onwards⟩)
    · exact ⟨.error error, after, [], rfl, .refused _ _ _, path_done.mpr ⟨rfl, rfl, rfl⟩⟩
    · exact ⟨.ok value, middle, rest, rfl, .served serves, onwards⟩

/-- A backend call that is the last of a path. -/
theorem path_ask {request : Backend.Call} {result : Except Error (Backend.Value request)} :
    Path zone instant (ask request).run before exchanges after result ↔
      (∃ error, exchanges = [refused request error] ∧ after = before ∧
        result = .error (.backend error)) ∨
      ∃ value, exchanges = [served request value] ∧ Serves zone request value before after ∧
        result = .ok value := by
  have last : ask request = ask request >>= pure := (bind_pure _).symm
  rw [last, path_ask_bind]
  refine or_congr_right ⟨?_, ?_⟩
  · rintro ⟨value, middle, rest, rfl, serves, onwards⟩
    obtain ⟨rfl, rfl, rfl⟩ := path_done.mp onwards
    exact ⟨value, rfl, serves, rfl⟩
  · rintro ⟨value, rfl, serves, rfl⟩
    exact ⟨value, after, [], rfl, serves, path_done.mpr ⟨rfl, rfl, rfl⟩⟩

/-- The clock shows one time throughout a pass. -/
theorem path_now_bind {next : Instant → Step α} {result : Except Error α} :
    Path zone instant (now >>= next).run before exchanges after result ↔
      ∃ rest, exchanges = clocked instant :: rest ∧
        Path zone instant (next instant).run before rest after result := by
  have read : (now >>= next).run =
      .call (I := Upkeep) .now fun instant : Instant => (next instant).run := rfl
  rw [read]
  refine path_call.trans ⟨?_, ?_⟩
  · rintro ⟨reply, middle, rest, rfl, replies, onwards⟩
    cases replies
    exact ⟨rest, rfl, onwards⟩
  · rintro ⟨rest, rfl, onwards⟩
    exact ⟨instant, before, rest, rfl, .read _, onwards⟩

end Rules

/-! ### Calls about the zone -/

section Serves

variable {zone : String} {before after : Holding}

/-- A call about the keys of the zone is about no other zone. -/
theorem self_ne_false : (zone == zone) ≠ false :=
  ne_false_of_eq_true (beq_self_eq_true zone)

theorem serves_listKeys {keys : List SigningKey} :
    Serves zone (.listKeys zone) keys before after ↔
      keys.Perm before.ring.keys ∧ after = before := by
  constructor
  · rintro ⟨takes, signed, account⟩
    generalize first : before.ring = ring, second : after.ring = ring' at takes
    cases takes with
    | listed _ _ same => exact ⟨first ▸ same, Holding.ext (second.trans first.symm) signed account⟩
    | elsewhere _ _ _ apart => exact absurd apart self_ne_false
  · rintro ⟨same, rfl⟩
    exact ⟨.listed _ _ same, rfl, rfl⟩

theorem serves_createKey {key stored : SigningKey} :
    Serves zone (.createKey zone key) stored before after ↔
      ∃ ring, Takes zone (.createKey zone key) stored before.ring ring ∧
        after = ⟨ring, true, before.account⟩ := by
  have mark : (before.signed || zone == zone) = true := by
    rw [beq_self_eq_true, Bool.or_true]
  constructor
  · rintro ⟨takes, signed, account⟩
    exact ⟨after.ring, takes, Holding.ext rfl (signed.trans mark) account⟩
  · rintro ⟨ring, takes, rfl⟩
    exact ⟨takes, mark.symm, rfl⟩

theorem serves_setKeyActive {number : UInt32} {active : Bool} {value : Unit} :
    Serves zone (.setKeyActive zone number active) value before after ↔
      (∃ key ∈ before.ring.keys, key.id = some number) ∧
        after = { before with ring := before.ring.switching number active } := by
  constructor
  · rintro ⟨takes, signed, account⟩
    generalize first : before.ring = ring, second : after.ring = ring' at takes
    cases takes with
    | switched _ _ _ held =>
      subst first
      exact ⟨held, Holding.ext second signed account⟩
    | elsewhere _ _ _ apart => exact absurd apart self_ne_false
  · rintro ⟨held, rfl⟩
    exact ⟨.switched _ _ _ held, rfl, rfl⟩

theorem serves_deleteKey {number : UInt32} {value : Unit} :
    Serves zone (.deleteKey zone number) value before after ↔
      after = { before with ring := before.ring.without number } := by
  constructor
  · rintro ⟨takes, signed, account⟩
    generalize first : before.ring = ring, second : after.ring = ring' at takes
    cases takes with
    | deleted _ _ =>
      subst first
      exact Holding.ext second signed account
    | elsewhere _ _ _ apart => exact absurd apart self_ne_false
  · rintro rfl
    exact ⟨.deleted _ _, rfl, rfl⟩

theorem serves_updateZone {settings : Settings} {value : Unit} :
    Serves zone (.updateZone zone settings) value before after ↔
      after = { before with account := settings.account.or before.account } := by
  have stored : accountAfter zone (.updateZone zone settings) before.account =
      settings.account.or before.account := if_pos (beq_self_eq_true zone)
  constructor
  · rintro ⟨takes, signed, account⟩
    generalize first : before.ring = ring, second : after.ring = ring' at takes
    cases takes with
    | elsewhere =>
      subst first
      exact Holding.ext second signed (account.trans stored)
  · rintro rfl
    exact ⟨.elsewhere _ _ _ rfl, rfl, stored.symm⟩

end Serves

/-! ### Passes -/

/-- A pass: the time that its clock shows, its calls with their replies, and its result. -/
structure Pass where
  instant : Instant
  exchanges : List (Exchange Upkeep)
  result : Except Error Unit

/-- No backend call of the pass failed. -/
def Pass.Unfailing (pass : Pass) : Prop :=
  Settled pass.exchanges

/-- A zone as it is read. -/
structure Read (zone : String) (held : Holding) (reading : Detail) : Prop where
  id : reading.id = zone
  signed : reading.signed = held.signed
  account : reading.account = held.account

/-- A check of the signing keys of a zone as it was just read. -/
inductive Checks (defaults : Defaults) (zone : String) (before : Holding) (pass : Pass)
    (after : Holding) : Prop
  | read (reading : Detail) (fresh : Read zone before reading)
      (path : Path zone pass.instant (checkSigning defaults reading).run before pass.exchanges
        after pass.result) :
    Checks defaults zone before pass after

/-- Passes one after the other, from a zone to what they make of it. -/
inductive Course (defaults : Defaults) (zone : String) : Holding → List Pass → Holding → Prop
  | nil (held : Holding) : Course defaults zone held [] held
  | cons {before middle after : Holding} {pass : Pass} {passes : List Pass}
      (checks : Checks defaults zone before pass middle)
      (rest : Course defaults zone middle passes after) :
    Course defaults zone before (pass :: passes) after

theorem answered_of_replies {zone : String} {instant : Instant} {request : Call}
    {reply : Zonecast.Upkeep.Reply request} {before after : Holding}
    (replies : Replies zone instant request reply before after) :
    Answered zone request reply before.ring after.ring := by
  cases replies with
  | served serves => exact .served serves.keys
  | refused => exact .refused _ _ _
  | read => exact .read _ _
  | countedFailure => exact .countedFailure _ _
  | countedRectifyFailure => exact .countedRectifyFailure _

/-- A process that does no harm leaves the keys in order. -/
theorem sound_of_path {zone : String} {instant : Instant} {anchor : UInt32} {order : List UInt32}
    {α : Type} {process : Process Upkeep α} {before after : Holding}
    {exchanges : List (Exchange Upkeep)} {result : α}
    (harmless : Harmless zone anchor process ⟨before.ring, order⟩)
    (sound : Sound anchor ⟨before.ring, order⟩)
    (path : Path zone instant process before exchanges after result) :
    ∃ order', Sound anchor ⟨after.ring, order'⟩ := by
  induction process generalizing before exchanges order with
  | done value =>
    obtain ⟨_, rfl, _⟩ := path_done.mp path
    exact ⟨order, sound⟩
  | call request next inductionHypothesis =>
    obtain ⟨reply, middle, rest, _, replies, onwards⟩ := path_call.mp path
    have answered := answered_of_replies replies
    obtain ⟨permitted, harmlessRest⟩ := harmless _ (.refl _) sound
    obtain ⟨order', later, whole⟩ := sound_of_answered sound permitted answered
    exact inductionHypothesis reply (harmlessRest reply ⟨middle.ring, order'⟩ answered later whole)
      whole onwards

/-- A pass leaves a zone with an active key of each role. -/
theorem signed_of_checks {defaults : Defaults} {zone : String} {before after : Holding}
    {pass : Pass} (signed : Signed before.ring)
    (checks : Checks defaults zone before pass after) : Signed after.ring := by
  obtain ⟨anchor, order, sound⟩ := sound_of_signed signed
  obtain ⟨reading, fresh, path⟩ := checks
  obtain ⟨order', whole⟩ :=
    sound_of_path (fresh.id ▸ harmless_checkSigning defaults) sound path
  exact signed_of_sound whole

end Zonecast.Upkeep
