/-
Which calls the checks of an upkeep pass make. Only the first two checks send record sets; what the
other two do concerns the transfer key, the signing keys, the account and the metadata of a zone.
None of the checks lists, reads or creates zones.
-/
import Zonecast.Proofs.RolloverTurns
import Zonecast.Upkeep.Pass

namespace Zonecast.Upkeep

open Process Zone

/-! ### Checks -/

/-- The calls of each check, wherever it takes its turn. -/
def Check.Makes : Check → Call → Prop
  | .authority, .backend (.patchZone _ _) | .nameservers, .backend (.patchZone _ _) => True
  | .transferKey, .backend (.getTransferKey _) | .transferKey, .backend (.createTransferKey _)
  | .transferKey, .backend (.getMetadata _ _) => True
  | .signing, .backend (.listKeys _) | .signing, .backend (.createKey _ _)
  | .signing, .backend (.setKeyActive _ _ _) | .signing, .backend (.deleteKey _ _)
  | .signing, .backend (.createMetadata _ _) | .signing, .backend (.updateZone _ _)
  | .signing, .backend (.rectifyZone _) | .signing, .now | .signing, .countRectifyFailure => True
  | _, _ => False

/-- A call that neither lists, creates nor patches zones. -/
def Unpatching : Call → Prop
  | .backend .listZones | .backend (.createZone _) | .backend (.patchZone _ _) => False
  | _ => True

theorem unpatching_of_makes {check : Check} {request : Call} (makes : check.Makes request)
    (other : check = .transferKey ∨ check = .signing) : Unpatching request := by
  rcases other with rfl | rfl
  all_goals
    cases request with
    | backend request => cases request <;> first | exact makes.elim | trivial
    | _ => trivial

section Checks

variable {defaults : Defaults} {zone : Detail}

theorem only_settle {kind : Call → Prop} {check : Check} {step : Step Unit}
    (counts : kind (.countFailure check)) (only : step.run.Only (I := Upkeep) kind) :
    (settle check step).Only (I := Upkeep) kind := by
  refine only_bind only fun result => ?_
  cases result with
  | ok => trivial
  | error => exact ⟨counts, fun _ => trivial⟩

theorem only_attempt_bind {kind : Call → Prop} {request : Backend.Call}
    {next : Except Backend.Error (Backend.Value request) → Step Unit}
    (permitted : kind (.backend request))
    (rest : ∀ reply, (next reply).run.Only (I := Upkeep) kind) :
    (attempt request >>= next).run.Only (I := Upkeep) kind :=
  only_run_bind ⟨permitted, fun _ => trivial⟩ rest

/-- A lookup that may find nothing is the last call of a check, whatever comes of it. -/
theorem done_of_lookup {request : Backend.Call}
    {next : Except Backend.Error (Backend.Value request) → Step Unit}
    (present : ∀ value, next (.ok value) = pure ())
    (failed : ∀ error, next (.error error) =
      if error.isNotFound then pure () else throw (.backend error))
    (reply : Except Backend.Error (Backend.Value request)) :
    ∃ result, (next reply).run = .done result := by
  cases reply with
  | ok value => exact ⟨.ok (), by rw [present]; rfl⟩
  | error error =>
    rw [failed]
    cases error.isNotFound <;> exact ⟨_, rfl⟩

theorem only_attempt_lookup {kind : Call → Prop} {request : Backend.Call}
    {next : Except Backend.Error (Backend.Value request) → Step Unit}
    (permitted : kind (.backend request)) (present : ∀ value, next (.ok value) = pure ())
    (failed : ∀ error, next (.error error) =
      if error.isNotFound then pure () else throw (.backend error)) :
    (attempt request >>= next).run.Only (I := Upkeep) kind := by
  refine only_attempt_bind permitted fun reply => ?_
  obtain ⟨result, ends⟩ := done_of_lookup present failed reply
  rw [ends]
  trivial

theorem makes_checkAuthority :
    (checkAuthority defaults zone).run.Only (I := Upkeep) (Check.Makes .authority) := by
  unfold checkAuthority
  cases authorityIsValid defaults zone with
  | true => trivial
  | false => exact ⟨trivial, fun _ => trivial⟩

theorem makes_checkNameservers :
    (checkNameservers defaults zone).run.Only (I := Upkeep) (Check.Makes .nameservers) := by
  unfold checkNameservers
  cases nameserversAreValid defaults zone with
  | true => trivial
  | false => exact ⟨trivial, fun _ => trivial⟩

theorem makes_checkTransferKey :
    (checkTransferKey zone).run.Only (I := Upkeep) (Check.Makes .transferKey) := by
  refine only_attempt_bind trivial fun reply => ?_
  cases reply with
  | ok => exact only_attempt_lookup trivial (fun _ => rfl) fun _ => rfl
  | error error =>
    dsimp only
    cases error.isNotFound with
    | true =>
      exact only_ask_bind trivial fun _ =>
        only_attempt_lookup trivial (fun _ => rfl) fun _ => rfl
    | false => trivial

theorem makes_enableSigning :
    (enableSigning zone).run.Only (I := Upkeep) (Check.Makes .signing) := by
  refine only_ask_bind trivial fun _ => only_ask_bind trivial fun _ =>
    only_ask_bind trivial fun _ => only_run_bind ⟨trivial, fun _ => trivial⟩ fun _ =>
      only_ask_bind trivial fun _ => only_attempt_bind trivial fun reply => ?_
  cases reply with
  | ok => trivial
  | error => exact ⟨trivial, fun _ => trivial⟩

theorem makes_of_routine {request : Call} (routine : Routine request) :
    Check.Makes .signing request := by
  cases request with
  | backend request => cases request <;> first | exact routine.elim | trivial
  | now => trivial
  | countFailure | countRectifyFailure => exact routine.elim

theorem makes_checkSigning :
    (checkSigning defaults zone).run.Only (I := Upkeep) (Check.Makes .signing) := by
  cases marked : zone.signed with
  | true => exact only_mono (routine_checkSigning marked) fun _ => makes_of_routine
  | false =>
    rw [checkSigning, marked]
    exact makes_enableSigning

theorem unpatching_checkTransferKey :
    (checkTransferKey zone).run.Only (I := Upkeep) Unpatching :=
  only_mono makes_checkTransferKey fun _ makes => unpatching_of_makes makes (.inl rfl)

theorem unpatching_checkSigning :
    (checkSigning defaults zone).run.Only (I := Upkeep) Unpatching :=
  only_mono makes_checkSigning fun _ makes => unpatching_of_makes makes (.inr rfl)

/-- What a check does with a zone. -/
def Check.step (defaults : Defaults) (zone : Detail) : Check → Step Unit
  | .authority => checkAuthority defaults zone
  | .nameservers => checkNameservers defaults zone
  | .transferKey => checkTransferKey zone
  | .signing => checkSigning defaults zone

theorem makes_step (check : Check) :
    (check.step defaults zone).run.Only (I := Upkeep) check.Makes := by
  cases check with
  | authority => exact makes_checkAuthority
  | nameservers => exact makes_checkNameservers
  | transferKey => exact makes_checkTransferKey
  | signing => exact makes_checkSigning

/-! ### Passes -/

/-- A pass is its checks in order. -/
theorem pass_eq (defaults : Defaults) (zone : Detail) :
    pass defaults zone =
      (settle .authority (checkAuthority defaults zone)).bind fun _ =>
        (settle .nameservers (checkNameservers defaults zone)).bind fun _ =>
          (if defaults.transferKeys then settle .transferKey (checkTransferKey zone)
            else .done ()).bind fun _ =>
              if defaults.signing then settle .signing (checkSigning defaults zone)
              else .done () := by
  unfold pass
  cases defaults.transferKeys <;> rfl

/-- The checks that are enabled, in their order. -/
def Defaults.checks (defaults : Defaults) : List Check :=
  [.authority, .nameservers] ++ (if defaults.transferKeys then [.transferKey] else []) ++
    if defaults.signing then [.signing] else []

/-- Settles some checks one after the other. -/
def settleAll (defaults : Defaults) (zone : Detail) : List Check → Process Upkeep Unit
  | [] => .done ()
  | check :: rest =>
    (settle check (check.step defaults zone)).bind fun _ => settleAll defaults zone rest

theorem pass_eq_settleAll (defaults : Defaults) (zone : Detail) :
    pass defaults zone = settleAll defaults zone defaults.checks := by
  have last : settle .signing (checkSigning defaults zone) = settleAll defaults zone [.signing] :=
    (bind_done _).symm
  rw [pass_eq, Defaults.checks, last]
  cases defaults.transferKeys <;> cases defaults.signing <;> rfl

theorem only_pass {kind : Call → Prop} (counts : ∀ check, kind (.countFailure check))
    (made : ∀ (check : Check) request, check.Makes request → kind request) :
    (pass defaults zone).Only (I := Upkeep) kind := by
  rw [pass_eq_settleAll]
  induction defaults.checks with
  | nil => trivial
  | cons check rest inductionHypothesis =>
    exact only_bind (only_settle (counts check) (only_mono (makes_step check) (made check)))
      fun _ => inductionHypothesis

theorem unpatching_transferKey :
    (if defaults.transferKeys then settle .transferKey (checkTransferKey zone)
      else .done ()).Only (I := Upkeep) Unpatching := by
  cases defaults.transferKeys with
  | true => exact only_settle trivial unpatching_checkTransferKey
  | false => trivial

theorem unpatching_signing :
    (if defaults.signing then settle .signing (checkSigning defaults zone)
      else .done ()).Only (I := Upkeep) Unpatching := by
  cases defaults.signing with
  | true => exact only_settle trivial unpatching_checkSigning
  | false => trivial

end Checks

end Zonecast.Upkeep
