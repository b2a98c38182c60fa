/-
The inspections that make up an upkeep pass. Every enabled check inspects the zone once, one after
the other, whatever comes of it. An inspection is the check's own calls, and the count of its
failure if it failed; so the counter of a check says how often it failed, and neither the calls of a
check nor its outcome depend on what the other checks were answered.
-/
import Zonecast.Metrics.Basic
import Zonecast.Proofs.UpkeepCalls

namespace Zonecast

/-! ### Counters -/

namespace Metrics

namespace Family

variable {α : Type}

theorem get?_touch (fresh : α) (labels other : Labels) (family : Family α) :
    (family.touch fresh labels).get? other =
      if labels = other then some ((family.get? labels).getD fresh) else family.get? other := by
  unfold touch
  by_cases present : (family.get? labels).isSome
  · rw [if_pos present]
    split
    · rename_i same
      subst same
      obtain ⟨value, found⟩ := Option.isSome_iff_exists.mp present
      rw [found]
      rfl
    · rfl
  · rw [if_neg present]
    have missing : family.find? (fun sample => sample.1 == labels) = none :=
      Option.map_eq_none_iff.mp (Option.not_isSome_iff_eq_none.mp present)
    unfold get?
    rw [List.find?_append]
    split
    · rename_i same
      subst same
      rw [missing, Option.none_or, List.find?_singleton, if_pos (beq_self_eq_true labels)]
      rfl
    · rename_i different
      rw [List.find?_singleton, if_neg (by simpa using different), Option.or_none]

theorem get?_update (fresh : α) (change : α → α) (labels other : Labels) (family : Family α) :
    (family.update fresh change labels).get? other =
      if labels = other then some (change ((family.get? labels).getD fresh))
      else family.get? other := by
  let changed (sample : Labels × α) : Labels × α :=
    if sample.1 == labels then (sample.1, change sample.2) else sample
  have key (sample : Labels × α) : (changed sample).1 = sample.1 := by
    dsimp only [changed]
    split <;> rfl
  have looked : (family.update fresh change labels).get? other =
      (((family.touch fresh labels).find? fun sample => sample.1 == other).map changed).map
        (·.2) := by
    show (((family.touch fresh labels).map changed).find? _).map _ = _
    rw [List.find?_map]
    congr 2
    exact congrArg (List.find? · _) (funext fun sample => by rw [Function.comp, key])
  have touched := get?_touch fresh labels other family
  unfold get? at touched
  rw [looked]
  cases found : (family.touch fresh labels).find? fun sample => sample.1 == other with
  | none =>
    rw [found] at touched
    split at touched
    · cases touched
    · rename_i different
      rw [if_neg different]
      exact touched
  | some sample =>
    have named : sample.1 = other := by simpa using List.find?_some found
    rw [found] at touched
    dsimp only [Option.map_some, changed]
    by_cases same : labels = other
    · rw [if_pos same] at touched ⊢
      have value : sample.2 = (family.get? labels).getD fresh := Option.some.inj touched
      rw [if_pos (beq_iff_eq.mpr (named.trans same.symm)), value]
    · rw [if_neg same] at touched ⊢
      rw [if_neg (by simpa [named] using Ne.symm same)]
      exact touched

end Family

/-- The counted failures of a check. -/
def failures (check : Upkeep.Check) (metrics : Metrics) : UInt64 :=
  (metrics.look (.failedChecks check)).1

theorem checkLabels_injective : Function.Injective checkLabels := by
  intro first second
  cases first <;> cases second <;> decide

theorem failures_failedCheck (check other : Upkeep.Check) (metrics : Metrics) :
    failures check (metrics.record (.failedCheck other)) =
      failures check metrics + if other = check then 1 else 0 := by
  let family := metrics.failedChecks
  show ((family.update 0 (· + 1) (checkLabels other)).get? (checkLabels check)).getD 0 =
    (family.get? (checkLabels check)).getD 0 + _
  rw [Family.get?_update]
  by_cases same : other = check
  · rw [if_pos (congrArg checkLabels same), if_pos same, same]
    rfl
  · rw [if_neg (checkLabels_injective.ne same), if_neg same, UInt64.add_zero]

end Metrics

namespace Upkeep

open Process Zone Metrics

/-- What a call counts. -/
def event? : Call → Option Event
  | .countFailure check => some (.failedCheck check)
  | .countRectifyFailure => some .failedRectify
  | .backend _ | .now => none

/-- What has been counted after some calls. -/
def counted (metrics : Metrics) (path : List (Exchange Upkeep)) : Metrics :=
  (path.filterMap fun exchange => event? exchange.request).foldl
    (fun held event => held.record event) metrics

theorem counted_append (metrics : Metrics) (first second : List (Exchange Upkeep)) :
    counted metrics (first ++ second) = counted (counted metrics first) second := by
  rw [counted, List.filterMap_append, List.foldl_append]
  rfl

/-- The calls of a check count no failure of a check. -/
theorem failures_counted_of_makes {check : Check} (other : Check)
    {path : List (Exchange Upkeep)} (makes : ∀ exchange ∈ path, check.Makes exchange.request)
    (metrics : Metrics) : failures other (counted metrics path) = failures other metrics := by
  induction path generalizing metrics with
  | nil => rfl
  | cons exchange rest inductionHypothesis =>
    obtain ⟨first, later⟩ := List.forall_mem_cons.mp makes
    obtain ⟨request, reply⟩ := exchange
    cases request with
    | countFailure failed => cases check <;> exact first.elim
    | backend | now | countRectifyFailure => exact inductionHypothesis later _

/-! ### Inspections -/

/-- What came of a check: the calls it made and its outcome. -/
structure Inspection where
  check : Check
  own : List (Exchange Upkeep)
  outcome : Except Error Unit

namespace Inspection

def failed (inspection : Inspection) : Bool :=
  match inspection.outcome with
  | .ok () => false
  | .error _ => true

/-- The calls of an inspection: the check's own, and the count of its failure if it failed. -/
def calls (inspection : Inspection) : List (Exchange Upkeep) :=
  inspection.own ++ if inspection.failed then [⟨.countFailure inspection.check, ()⟩] else []

/-- The zone is inspected by the check. -/
def Against (defaults : Defaults) (zone : Detail) (inspection : Inspection) : Prop :=
  Runs (inspection.check.step defaults zone).run inspection.own inspection.outcome

variable {defaults : Defaults} {zone : Detail} {inspection : Inspection}

/-- An inspection counts the failure of its own check, if it failed, and of no other. -/
theorem Against.failures_counted (against : inspection.Against defaults zone) (check : Check)
    (metrics : Metrics) : failures check (counted metrics inspection.calls) =
      failures check metrics + if inspection.check = check ∧ inspection.failed then 1 else 0 := by
  have makes := kind_of_mem (makes_step inspection.check) against
  have own := failures_counted_of_makes check makes metrics
  rw [calls, counted_append]
  cases inspection.failed with
  | false =>
    simp only [Bool.false_eq_true, and_false, if_false, UInt64.add_zero]
    exact own
  | true =>
    rw [if_pos rfl]
    show failures check
      ((counted metrics inspection.own).record (.failedCheck inspection.check)) = _
    rw [failures_failedCheck, own]
    simp only [and_true]

end Inspection

/-- These are the inspections by the enabled checks in a pass over a zone. -/
structure Inspections (defaults : Defaults) (zone : Detail) (path : List (Exchange Upkeep))
    (inspections : List Inspection) : Prop where
  checks : inspections.map Inspection.check = defaults.checks
  calls : path = inspections.flatMap Inspection.calls
  against : ∀ inspection ∈ inspections, inspection.Against defaults zone

section Passes

variable {defaults : Defaults} {zone : Detail}

theorem runs_settle {check : Check} {step : Step Unit} {path : List (Exchange Upkeep)}
    {result : Unit} (run : Runs (settle check step) path result) :
    ∃ own outcome, Runs step.run own outcome ∧ path = (Inspection.mk check own outcome).calls := by
  obtain ⟨own, outcome, rest, rfl, runs, counts⟩ := runs_bind.mp run
  refine ⟨own, outcome, runs, ?_⟩
  cases outcome with
  | ok =>
    obtain ⟨rfl, _⟩ := runs_done.mp counts
    rfl
  | error error =>
    obtain ⟨reply, others, rfl, last⟩ := runs_call.mp counts
    obtain ⟨rfl, _⟩ := runs_done.mp last
    rfl

/-- Every enabled check inspects the zone once in a pass. -/
theorem exists_inspections {path : List (Exchange Upkeep)} {result : Unit}
    (run : Runs (pass defaults zone) path result) :
    ∃ inspections, Inspections defaults zone path inspections := by
  suffices all : ∀ checks path result, Runs (settleAll defaults zone checks) path result →
      ∃ inspections : List Inspection, inspections.map Inspection.check = checks ∧
        path = inspections.flatMap Inspection.calls ∧
        ∀ inspection ∈ inspections, inspection.Against defaults zone by
    rw [pass_eq_settleAll] at run
    obtain ⟨inspections, checks, calls, against⟩ := all _ _ _ run
    exact ⟨inspections, checks, calls, against⟩
  intro checks
  induction checks with
  | nil =>
    intro path result run
    obtain ⟨rfl, _⟩ := runs_done.mp run
    exact ⟨[], rfl, rfl, List.forall_mem_nil _⟩
  | cons check rest inductionHypothesis =>
    intro path result run
    obtain ⟨before, _, after, rfl, first, others⟩ := runs_bind.mp run
    obtain ⟨own, outcome, runs, rfl⟩ := runs_settle first
    obtain ⟨inspections, same, rfl, against⟩ := inductionHypothesis after result others
    exact ⟨⟨check, own, outcome⟩ :: inspections, by rw [List.map_cons, same], rfl,
      List.forall_mem_cons.mpr ⟨runs, against⟩⟩

theorem nodup_checks (defaults : Defaults) : defaults.checks.Nodup := by
  unfold Defaults.checks
  cases defaults.transferKeys <;> cases defaults.signing <;> decide

/-- For a check that does not inspect, nothing is counted. -/
theorem failures_counted_of_not_mem {inspections : List Inspection} {check : Check}
    (against : ∀ inspection ∈ inspections, inspection.Against defaults zone)
    (absent : check ∉ inspections.map Inspection.check) (metrics : Metrics) :
    failures check (counted metrics (inspections.flatMap Inspection.calls)) =
      failures check metrics := by
  induction inspections generalizing metrics with
  | nil => rfl
  | cons inspection rest inductionHypothesis =>
    obtain ⟨first, others⟩ := List.forall_mem_cons.mp against
    rw [List.map_cons, List.mem_cons, not_or] at absent
    rw [List.flatMap_cons, counted_append, inductionHypothesis others absent.2,
      first.failures_counted, if_neg fun both => absent.1 both.1.symm, UInt64.add_zero]

/-- The counter of a check grows by one if its inspection failed, and else not. -/
theorem failures_counted_of_mem {inspections : List Inspection} {inspection : Inspection}
    (against : ∀ inspection ∈ inspections, inspection.Against defaults zone)
    (once : (inspections.map Inspection.check).Nodup) (member : inspection ∈ inspections)
    (metrics : Metrics) :
    failures inspection.check (counted metrics (inspections.flatMap Inspection.calls)) =
      failures inspection.check metrics + if inspection.failed then 1 else 0 := by
  induction inspections generalizing metrics with
  | nil => cases member
  | cons head rest inductionHypothesis =>
    obtain ⟨first, others⟩ := List.forall_mem_cons.mp against
    obtain ⟨absent, distinct⟩ := List.nodup_cons.mp once
    rw [List.flatMap_cons, counted_append]
    rcases List.mem_cons.mp member with rfl | later
    · rw [failures_counted_of_not_mem others absent, first.failures_counted]
      simp only [true_and]
    · have different : head.check ≠ inspection.check := fun same =>
        absent (same ▸ List.mem_map_of_mem later)
      rw [inductionHypothesis others distinct later, first.failures_counted,
        if_neg fun both => different both.1, UInt64.add_zero]

end Passes

end Upkeep

end Zonecast
