/-
Where the names of a delivery went. There are four ways to account for them: they were published;
they were handed back to the registry, all together; two smaller batches that hold them between
them were enqueued; or the one name there is was given up. A delivery that is done can be
accounted for in exactly one way, and one that is not done in none, so asking the queue for it
again loses nothing and doubles nothing that was said to be settled.

Giving up follows a failed commit, and missing the deadline counts as one. The work under the
lease waits for the commit, or, where the writer is unknown, for the refresh request; so a name
can be given up although no commit was tried.
-/
import Zonecast.Proofs.Deliveries
import Zonecast.Proofs.Halves

namespace Zonecast.Publish

/-! ### Kinds of deeds -/

namespace Deed

/-- Something that is done with a writer. -/
def isWriting : Deed → Bool
  | .created _ _ _ | .stagedDomain _ | .stagedHost _ | .counted _ | .committed _ => true
  | _ => false

/-- A refresh request. -/
def isRefresh : Deed → Bool
  | .refreshed _ _ _ => true
  | _ => false

/-- A commit, however it ends. -/
def isCommit : Deed → Bool
  | .committed _ => true
  | _ => false

/-- A batch offered to the queue. -/
def isEnqueue : Deed → Bool
  | .enqueued _ _ => true
  | _ => false

end Deed

/-! ### Accounts -/

/-- A way to account for the names of a batch. -/
inductive Way
  | published
  | returned
  | divided
  | givenUp
  deriving DecidableEq, Repr

/-- Whether the names of a batch are accounted for in some way by the deeds of a delivery that was
answered with some status. -/
def Way.Holds (settings : Settings) (batch : Batch) (attempt status : Nat) (deeds : List Deed) :
    Way → Prop
  /- Exactly the names under the TLD are staged on one writer, the others only counted, and its
  one commit succeeds. -/
  | .published =>
      deeds.filter Deed.isWriting = publishing batch (Name.bare batch.tld) (some (.ok ()))
  /- All names are in one refresh request, which succeeds. -/
  | .returned => deeds.filter Deed.isRefresh =
      [.refreshed batch.domains batch.hosts (some (.ok ()))]
  /- Two halves are enqueued. -/
  | .divided => ∃ first second, Halves batch first second ∧
      deeds.filter Deed.isEnqueue = [.enqueued first (.ok ()), .enqueued second (.ok ())]
  /- The last attempt at a batch of at most one name fails: its commit fails or is abandoned at
  the deadline, or no writer is known for the TLD and the refresh request is abandoned there. -/
  | .givenUp => status = 202 ∧ batch.itemCount ≤ 1 ∧ settings.retriesBeforeGivingUp ≤ attempt ∧
      ((∃ reply?, reply? ≠ some (.ok ()) ∧ .committed reply? ∈ deeds) ∨
        .created batch.writer (Name.bare batch.tld) false ∈ deeds ∧
          .refreshed batch.domains batch.hosts none ∈ deeds)

/-- The way that belongs to an outcome. -/
def Outcome.way : Outcome → Way
  | .succeeded _ _ => .published
  | .requeued _ => .returned
  | .split => .divided
  | .permanentlyFailed => .givenUp

/-! ### Deeds of each kind -/

section Kinds

variable {settings : Settings} {batch : Batch} {attempt : Nat} {deeds : List Deed}

theorem isWriting_publishing {tld : String} {reply? : Option (Except Writer.Error Unit)} :
    ∀ deed ∈ publishing batch tld reply?, deed.isWriting = true := by
  intro deed member
  simp only [publishing, stagings, tallies, List.mem_cons, List.mem_append, List.mem_map,
    List.not_mem_nil, or_false] at member
  rcases member with rfl | (⟨_, _, rfl⟩ | ⟨_, _, rfl⟩) | (rfl | rfl | rfl | rfl) | rfl <;> rfl

/-- What is done with a writer is neither a refresh request nor an offer to the queue. -/
theorem kind_of_isWriting (deed : Deed) (writing : deed.isWriting = true) :
    deed.isRefresh = false ∧ deed.isEnqueue = false := by
  cases deed <;> first | exact ⟨rfl, rfl⟩ | cases writing

theorem filter_publishing {tld : String} {reply? : Option (Except Writer.Error Unit)} :
    (publishing batch tld reply?).filter Deed.isWriting = publishing batch tld reply? ∧
      (publishing batch tld reply?).filter Deed.isRefresh = [] ∧
      (publishing batch tld reply?).filter Deed.isEnqueue = [] := by
  refine ⟨List.filter_eq_self.mpr isWriting_publishing, ?_, ?_⟩
  · rw [List.filter_eq_nil_iff]
    intro deed member refresh
    rw [(kind_of_isWriting deed (isWriting_publishing deed member)).1] at refresh
    cases refresh
  · rw [List.filter_eq_nil_iff]
    intro deed member enqueue
    rw [(kind_of_isWriting deed (isWriting_publishing deed member)).2] at enqueue
    cases enqueue

theorem filter_returning {tld : String} {reply? : Option (Except Registry.Error Unit)} :
    (returning batch tld reply?).filter Deed.isWriting = [.created batch.writer tld false] ∧
      (returning batch tld reply?).filter Deed.isRefresh =
        [.refreshed batch.domains batch.hosts reply?] ∧
      (returning batch tld reply?).filter Deed.isEnqueue = [] :=
  ⟨rfl, rfl, rfl⟩

/-- Settling a failed commit asks no writer and no registry, and what it offers to the queue says
whether it cut the batch in two. -/
theorem filter_settled {source : Writer.Error} {result : Except Error Outcome}
    (settled : Settled settings batch attempt source deeds result) :
    deeds.filter Deed.isWriting = [] ∧ deeds.filter Deed.isRefresh = [] ∧
      ((∃ first second, Halves batch first second ∧ deeds.filter Deed.isEnqueue =
        [.enqueued first (.ok ()), .enqueued second (.ok ())]) ↔ result = .ok .split) := by
  cases settled with
  | early | again =>
    refine ⟨rfl, rfl, ?_, fun same => by cases same⟩
    rintro ⟨first, second, _, offered⟩
    cases offered
  | firstRefused late several now refusal =>
    refine ⟨rfl, rfl, ?_, fun same => by cases same⟩
    rintro ⟨first, second, _, offered⟩
    injection offered with _ alone
    cases alone
  | secondRefused late several now refusal =>
    refine ⟨rfl, rfl, ?_, fun same => by cases same⟩
    rintro ⟨first, second, _, offered⟩
    injection offered with _ others
    injection others with last
    injection last with _ refused
    cases refused
  | split late several now =>
    exact ⟨rfl, rfl, fun _ => rfl, fun _ => ⟨_, _, halves_split batch now, rfl⟩⟩
  | gaveUp single last _ told =>
    have mailed : ∀ kind : Deed → Bool, (∀ mail reply, kind (.mailed mail reply) = false) →
        deeds.filter kind = [] := by
      intro kind other
      rw [List.filter_eq_nil_iff]
      intro deed member kept
      obtain ⟨mail, reply, rfl⟩ := told deed member
      rw [other] at kept
      cases kept
    refine ⟨mailed _ fun _ _ => rfl, mailed _ fun _ _ => rfl, ?_, fun same => by cases same⟩
    rintro ⟨first, second, _, offered⟩
    rw [mailed _ fun _ _ => rfl] at offered
    cases offered

/-- Around the work under the lease and what follows it, nothing of these kinds is done. -/
theorem filter_leased {tld resource name : String} {millis : Nat}
    {asked : Except Registry.Error (Option Nat)}
    {acquired : Except Lock.Error (Option Lock.Handle)} {handle : Lock.Handle}
    {released : Except Lock.Error Unit} {work after : List Deed} (kind : Deed → Bool)
    (others : kind (.asked tld asked) = false ∧
      kind (.acquired resource name millis acquired) = false ∧
      kind (.released handle released) = false) :
    (.asked tld asked :: .acquired resource name millis acquired ::
      (work ++ .released handle released :: after)).filter kind =
        work.filter kind ++ after.filter kind := by
  rw [List.filter_cons_of_neg (by simp [others.1]), List.filter_cons_of_neg (by simp [others.2.1]),
    List.filter_append, List.filter_cons_of_neg (by simp [others.2.2])]

end Kinds

/-! ### Outcomes and accounts -/

section Outcomes

variable {settings : Settings} {batch : Batch} {attempt : Nat} {deeds : List Deed}
  {result : Except Error Outcome}

/-- A failed commit is no success and no return to the registry. -/
theorem outcome_of_settled {source : Writer.Error} {outcome : Outcome}
    (settled : Settled settings batch attempt source deeds (.ok outcome)) :
    outcome = .split ∨ outcome = .permanentlyFailed := by
  cases settled with
  | split => exact Or.inl rfl
  | gaveUp => exact Or.inr rfl

/-- A failed commit does not end in success. -/
theorem not_succeeded_of_settled {source : Writer.Error}
    (settled : Settled settings batch attempt source deeds result) :
    ¬ ∃ domains hosts, result = .ok (.succeeded domains hosts) := by
  rintro ⟨domains, hosts, rfl⟩
  rcases outcome_of_settled settled with impossible | impossible <;> cases impossible

/-- Nor does it send a batch back to the registry. -/
theorem not_requeued_of_settled {source : Writer.Error}
    (settled : Settled settings batch attempt source deeds result) :
    ¬ ∃ reason, result = .ok (.requeued reason) := by
  rintro ⟨reason, rfl⟩
  rcases outcome_of_settled settled with impossible | impossible <;> cases impossible

/-- A delivery succeeds just when the batch was published. -/
theorem publishing_iff (delivered : Delivered settings batch attempt deeds result) :
    deeds.filter Deed.isWriting = publishing batch (Name.bare batch.tld) (some (.ok ())) ↔
      ∃ domains hosts, result = .ok (.succeeded domains hosts) := by
  cases delivered with
  | unanswered | unlocked | excluded =>
    refine iff_of_false (fun same => by cases same) ?_
    rintro ⟨domains, hosts, done⟩
    cases done
  | misplaced configured reply stale =>
    refine iff_of_false (fun same => by cases same) ?_
    rintro ⟨domains, hosts, done⟩
    rcases reply with source | value <;> cases done
  | leased shard handle work after ended? reply result resolved worked concluded =>
    rw [filter_leased Deed.isWriting ⟨rfl, rfl, rfl⟩]
    rcases worked_cases worked concluded with ⟨rfl, rfl, rfl⟩ |
      ⟨reply?, source, rfl, failed, settled⟩ | ⟨rfl, rfl, rfl⟩ | ⟨source, rfl, rfl, rfl⟩ |
      ⟨source, rfl, settled⟩
    · rw [filter_publishing.1, List.filter_nil, List.append_nil]
      exact iff_of_true rfl ⟨_, _, rfl⟩
    · rw [filter_publishing.1, (filter_settled settled).1, List.append_nil]
      refine iff_of_false (fun same => ?_) (not_succeeded_of_settled settled)
      exact absurd (by simpa [publishing] using same) failed
    · refine iff_of_false (fun same => by cases same) ?_
      rintro ⟨domains, hosts, done⟩
      cases done
    · refine iff_of_false (fun same => by cases same) ?_
      rintro ⟨domains, hosts, done⟩
      cases done
    · rw [filter_returning.1, (filter_settled settled).1]
      exact iff_of_false (fun same => by cases same) (not_succeeded_of_settled settled)

/-- A delivery goes back to the registry just when its one refresh request succeeds. -/
theorem returning_iff (delivered : Delivered settings batch attempt deeds result) :
    deeds.filter Deed.isRefresh = [.refreshed batch.domains batch.hosts (some (.ok ()))] ↔
      ∃ reason, result = .ok (.requeued reason) := by
  have unanswered : ∀ reply?, reply? ≠ some (.ok ()) →
      ([.refreshed batch.domains batch.hosts reply?] : List Deed) ≠
        [.refreshed batch.domains batch.hosts (some (.ok ()))] := by
    intro reply? failed same
    injection same with head
    injection head with _ _ answered
    exact failed answered
  cases delivered with
  | unanswered | unlocked | excluded =>
    refine iff_of_false (fun same => by cases same) ?_
    rintro ⟨reason, done⟩
    cases done
  | misplaced configured reply stale =>
    rcases reply with source | value
    · refine iff_of_false (unanswered _ fun same => by cases same) ?_
      rintro ⟨reason, done⟩
      cases done
    · exact iff_of_true rfl ⟨_, rfl⟩
  | leased shard handle work after ended? reply result resolved worked concluded =>
    rw [filter_leased Deed.isRefresh ⟨rfl, rfl, rfl⟩]
    rcases worked_cases worked concluded with ⟨rfl, rfl, rfl⟩ |
      ⟨reply?, source, rfl, failed, settled⟩ | ⟨rfl, rfl, rfl⟩ | ⟨source, rfl, rfl, rfl⟩ |
      ⟨source, rfl, settled⟩
    · rw [filter_publishing.2.1]
      refine iff_of_false (fun same => by cases same) ?_
      rintro ⟨reason, done⟩
      cases done
    · rw [filter_publishing.2.1, (filter_settled settled).2.1]
      exact iff_of_false (fun same => by cases same) (not_requeued_of_settled settled)
    · exact iff_of_true rfl ⟨_, rfl⟩
    · refine iff_of_false (unanswered _ fun same => by cases same) ?_
      rintro ⟨reason, done⟩
      cases done
    · rw [filter_returning.2.1, (filter_settled settled).2.1]
      exact iff_of_false (unanswered _ (Option.some_ne_none _).symm)
        (not_requeued_of_settled settled)

/-- A delivery ends with a split just when it enqueues two halves. -/
theorem dividing_iff (delivered : Delivered settings batch attempt deeds result) :
    (∃ first second, Halves batch first second ∧ deeds.filter Deed.isEnqueue =
      [.enqueued first (.ok ()), .enqueued second (.ok ())]) ↔ result = .ok .split := by
  have nothing : deeds.filter Deed.isEnqueue = [] → result ≠ .ok .split →
      ((∃ first second, Halves batch first second ∧ deeds.filter Deed.isEnqueue =
        [.enqueued first (.ok ()), .enqueued second (.ok ())]) ↔ result = .ok .split) := by
    intro empty other
    refine iff_of_false ?_ other
    rintro ⟨first, second, _, offered⟩
    rw [empty] at offered
    cases offered
  cases delivered with
  | unanswered | unlocked | excluded => exact nothing rfl fun same => by cases same
  | misplaced configured reply stale =>
    rcases reply with source | value
    · exact nothing rfl fun same => by cases same
    · exact nothing rfl fun same => by cases same
  | leased shard handle work after ended? reply result resolved worked concluded =>
    rw [filter_leased Deed.isEnqueue ⟨rfl, rfl, rfl⟩] at nothing ⊢
    rcases worked_cases worked concluded with ⟨rfl, rfl, rfl⟩ |
      ⟨reply?, source, rfl, failed, settled⟩ | ⟨rfl, rfl, rfl⟩ | ⟨source, rfl, rfl, rfl⟩ |
      ⟨source, rfl, settled⟩
    · exact nothing (by rw [filter_publishing.2.2]; rfl) fun same => by cases same
    · rw [filter_publishing.2.2, List.nil_append]
      exact (filter_settled settled).2.2
    · exact nothing rfl fun same => by cases same
    · exact nothing rfl fun same => by cases same
    · rw [filter_returning.2.2, List.nil_append]
      exact (filter_settled settled).2.2

/-- A batch that is given up has no two names, was tried often enough, and lost its last commit or,
without a writer, missed the deadline. -/
theorem of_permanentlyFailed
    (delivered : Delivered settings batch attempt deeds (.ok .permanentlyFailed)) :
    batch.itemCount ≤ 1 ∧ settings.retriesBeforeGivingUp ≤ attempt ∧
      ((∃ reply?, reply? ≠ some (.ok ()) ∧ .committed reply? ∈ deeds) ∨
        .created batch.writer (Name.bare batch.tld) false ∈ deeds ∧
          .refreshed batch.domains batch.hosts none ∈ deeds) := by
  have tried : ∀ {source : Writer.Error} {after : List Deed},
      Settled settings batch attempt source after (.ok .permanentlyFailed) →
      batch.itemCount ≤ 1 ∧ settings.retriesBeforeGivingUp ≤ attempt := by
    intro source after settled
    cases settled with
    | gaveUp single last _ _ =>
      exact ⟨Nat.le_of_not_lt (of_decide_eq_false single), last⟩
  generalize same : (.ok .permanentlyFailed : Except Error Outcome) = result at delivered
  cases delivered with
  | unanswered | unlocked | excluded => cases same
  | misplaced configured reply stale => rcases reply with source | value <;> cases same
  | leased shard handle work after ended? reply result resolved worked concluded =>
    subst same
    rcases worked_cases worked concluded with ⟨_, _, impossible⟩ |
      ⟨reply?, source, rfl, failed, settled⟩ | ⟨_, _, impossible⟩ | ⟨_, _, _, impossible⟩ |
      ⟨source, rfl, settled⟩
    · cases impossible
    · exact ⟨(tried settled).1, (tried settled).2, Or.inl ⟨reply?, failed,
        mem_of_mem_work (committed_mem_publishing _ _ _)⟩⟩
    · cases impossible
    · cases impossible
    · exact ⟨(tried settled).1, (tried settled).2, Or.inr
        ⟨mem_of_mem_work List.mem_cons_self,
          mem_of_mem_work (List.mem_cons_of_mem _ List.mem_cons_self)⟩⟩

/-- Which way a delivery can be accounted for is told by its outcome, and a delivery without one
cannot be accounted for. -/
theorem holds_iff (delivered : Delivered settings batch attempt deeds result) {status : Nat}
    (told : status = 202 ↔ result = .ok .permanentlyFailed) (way : Way) :
    way.Holds settings batch attempt status deeds ↔
      ∃ outcome, result = .ok outcome ∧ outcome.way = way := by
  cases way with
  | published =>
    refine (publishing_iff delivered).trans ⟨?_, ?_⟩
    · rintro ⟨domains, hosts, rfl⟩
      exact ⟨_, rfl, rfl⟩
    · rintro ⟨outcome, rfl, same⟩
      cases outcome with
      | succeeded domains hosts => exact ⟨domains, hosts, rfl⟩
      | requeued | split | permanentlyFailed => cases same
  | returned =>
    refine (returning_iff delivered).trans ⟨?_, ?_⟩
    · rintro ⟨reason, rfl⟩
      exact ⟨_, rfl, rfl⟩
    · rintro ⟨outcome, rfl, same⟩
      cases outcome with
      | requeued reason => exact ⟨reason, rfl⟩
      | succeeded | split | permanentlyFailed => cases same
  | divided =>
    refine (dividing_iff delivered).trans ⟨fun same => ⟨_, same, rfl⟩, ?_⟩
    rintro ⟨outcome, rfl, same⟩
    cases outcome with
    | split => rfl
    | succeeded | requeued | permanentlyFailed => cases same
  | givenUp =>
    constructor
    · rintro ⟨acknowledged, _⟩
      exact ⟨_, told.mp acknowledged, rfl⟩
    · rintro ⟨outcome, rfl, same⟩
      cases outcome with
      | permanentlyFailed => exact ⟨told.mpr rfl, of_permanentlyFailed delivered⟩
      | succeeded | requeued | split => cases same

end Outcomes

end Zonecast.Publish
