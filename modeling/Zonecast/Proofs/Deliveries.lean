/-
The ways a delivery can go. Each is a sequence of deeds with the result it leads to, so what a
delivery did and how it ended can be read off one another. Under the lease there are two: a writer
is found, everything that belongs to the TLD is staged on it and it commits; or there is no
writer, and all names go back through the refresh path. Either ends at the call that is waited
for, if the deadline comes first, and that counts as a failed commit.
-/
import Zonecast.Proofs.Deeds

namespace Zonecast.Publish

open Process

/-! ### Under the lease -/

/-- The stagings of a batch: its names under the TLD, domains first. -/
def stagings (batch : Batch) (tld : String) : List Deed :=
  ((batch.domains.filter fun name => Name.isStrictlyUnder name tld).map .stagedDomain) ++
    (batch.hosts.filter fun name => Name.isStrictlyUnder name tld).map .stagedHost

/-- The counts of a batch: how many names were accepted and how many rejected. -/
def tallies (batch : Batch) (tld : String) : List Deed :=
  [.counted (.domains tld .accepted (UInt64.ofNat (Leased.tally tld batch.domains).accepted)),
    .counted (.domains tld .rejected (UInt64.ofNat (Leased.tally tld batch.domains).rejected)),
    .counted (.hosts tld .accepted (UInt64.ofNat (Leased.tally tld batch.hosts).accepted)),
    .counted (.hosts tld .rejected (UInt64.ofNat (Leased.tally tld batch.hosts).rejected))]

/-- What a commit that ended makes of the work. -/
def afterCommit (batch : Batch) (tld : String) :
    Except Writer.Error Unit → Except LeasedError Outcome
  | .ok () => .ok (.succeeded (Leased.tally tld batch.domains) (Leased.tally tld batch.hosts))
  | .error source => .error (.commit source)

/-- What a refresh request that was answered makes of the work. -/
def afterRefresh : Except Registry.Error Unit → Except LeasedError Outcome
  | .ok () => .ok (.requeued .unknownWriter)
  | .error source => .error (.registry source)

/-- The deeds of a batch that is published, up to what its commit was answered. -/
def publishing (batch : Batch) (tld : String) (reply? : Option (Except Writer.Error Unit)) :
    List Deed :=
  .created batch.writer tld true ::
    (stagings batch tld ++ (tallies batch tld ++ [.committed reply?]))

theorem committed_mem_publishing (batch : Batch) (tld : String)
    (reply? : Option (Except Writer.Error Unit)) :
    .committed reply? ∈ publishing batch tld reply? := by
  simp [publishing]

/-- The deeds of a batch whose writer is unknown, up to what the registry answered. -/
def returning (batch : Batch) (tld : String) (reply? : Option (Except Registry.Error Unit)) :
    List Deed :=
  [.created batch.writer tld false, .refreshed batch.domains batch.hosts reply?]

/-- The ways that work under the lease can go; it ends with nothing where it misses the
deadline. -/
inductive Worked (batch : Batch) (tld : String) :
    List Deed → Option (Except LeasedError Outcome) → Prop
  | published (reply? : Option (Except Writer.Error Unit)) :
    Worked batch tld (publishing batch tld reply?) (reply?.map (afterCommit batch tld))
  | returned (reply? : Option (Except Registry.Error Unit)) :
    Worked batch tld (returning batch tld reply?) (reply?.map afterRefresh)

section Leased

variable {batch : Batch} {tld : String} {deeds : List Deed}

/-- Counting and reading the clock under the lease are no deeds. -/
theorem deeds_leasedCountEnding {ending : Metrics.Ending} {result : Option Unit}
    (done : Does (Delivery.underDeadline (Leased.countEnding batch tld ending)) deeds result) :
    deeds = [] ∧ result = some () := by
  obtain ⟨instant, rest, rfl, counting⟩ := (does_underDeadline_step rfl).mp done
  obtain ⟨same, prompt⟩ := does_underDeadline_perform.mp counting
  cases result with
  | none => exact absurd (prompt rfl) Bool.false_ne_true
  | some value => exact ⟨same, rfl⟩

theorem deeds_stageAll {stage : String → LeasedCall} (made : String → Deed)
    (prompt : ∀ name, (stage name).isAwaited = false)
    (deed : ∀ name reply?, leasedDeed? (stage name) reply? = some (made name))
    (names : List String) {result : Option Unit}
    (done : Does (Delivery.underDeadline (Leased.stageAll tld stage names)) deeds result) :
    deeds = (names.filter fun name => Name.isStrictlyUnder name tld).map made ∧
      result = some () := by
  induction names generalizing deeds with
  | nil =>
    obtain ⟨rfl, rfl⟩ := does_done.mp done
    exact ⟨rfl, rfl⟩
  | cons first rest inductionHypothesis =>
    rw [Leased.stageAll] at done
    by_cases under : Name.isStrictlyUnder first tld = true
    · rw [if_pos under] at done
      obtain ⟨reply, others, rfl, staged⟩ := (does_underDeadline_step (prompt first)).mp done
      obtain ⟨rfl, rfl⟩ := inductionHypothesis staged
      rw [deed, List.filter_cons_of_pos (p := fun name => Name.isStrictlyUnder name tld) under]
      exact ⟨rfl, rfl⟩
    · rw [if_neg under] at done
      obtain ⟨rfl, rfl⟩ := inductionHypothesis done
      rw [List.filter_cons_of_neg (p := fun name => Name.isStrictlyUnder name tld) under]
      exact ⟨rfl, rfl⟩

/-- A commit under the lease is one deed; without an answer it ended the work. -/
theorem deeds_leasedCommit {result : Option (Except Writer.Error Unit)}
    (done : Does (Delivery.underDeadline (Leased.commit batch tld)) deeds result) :
    deeds = [.committed result] := by
  obtain ⟨started, afterStart, rfl, committing⟩ := (does_underDeadline_step rfl).mp done
  rcases does_underDeadline_bind.mp committing with
    ⟨missed, rfl⟩ | ⟨before, committed, after, rfl, answered, counting⟩
  · rw [(does_underDeadline_perform.mp missed).1]
    rfl
  · rw [(does_underDeadline_perform.mp answered).1]
    obtain ⟨ended, _, rfl, reporting⟩ := (does_underDeadline_step rfl).mp counting
    have quiet : after = [] ∧ result = some committed := by
      cases committed with
      | ok value =>
        obtain ⟨_, others, rfl, ending⟩ := (does_underDeadline_step rfl).mp reporting
        rcases does_underDeadline_bind.mp ending with ⟨late, _⟩ | ⟨_, _, _, rfl, said, finish⟩
        · exact absurd (deeds_leasedCountEnding late).2 (Option.some_ne_none _).symm
        · obtain ⟨rfl, rfl⟩ := does_done.mp finish
          rw [(deeds_leasedCountEnding said).1]
          exact ⟨rfl, rfl⟩
      | error source =>
        obtain ⟨_, others, rfl, ending⟩ := (does_underDeadline_step rfl).mp reporting
        rcases does_underDeadline_bind.mp ending with ⟨late, _⟩ | ⟨_, _, _, rfl, said, finish⟩
        · exact absurd (deeds_leasedCountEnding late).2 (Option.some_ne_none _).symm
        · obtain ⟨rfl, rfl⟩ := does_done.mp finish
          rw [(deeds_leasedCountEnding said).1]
          exact ⟨rfl, rfl⟩
    obtain ⟨rfl, rfl⟩ := quiet
    rfl

theorem worked_publish {result : Option (Except LeasedError Outcome)}
    (done : Does (Delivery.underDeadline (Leased.publish batch tld)) deeds result) :
    ∃ reply?, deeds = stagings batch tld ++ (tallies batch tld ++ [.committed reply?]) ∧
      result = reply?.map (afterCommit batch tld) := by
  rcases does_underDeadline_bind.mp done with ⟨late, _⟩ | ⟨staged, _, _, rfl, first, afterDomains⟩
  · exact absurd (deeds_stageAll .stagedDomain (fun _ => rfl) (fun _ _ => rfl) _ late).2
      (Option.some_ne_none _).symm
  obtain ⟨rfl, _⟩ :=
    deeds_stageAll .stagedDomain (fun _ => rfl) (fun _ _ => rfl) _ first
  rcases does_underDeadline_bind.mp afterDomains with
    ⟨late, _⟩ | ⟨stagedHosts, _, _, rfl, second, afterHosts⟩
  · exact absurd (deeds_stageAll .stagedHost (fun _ => rfl) (fun _ _ => rfl) _ late).2
      (Option.some_ne_none _).symm
  obtain ⟨rfl, _⟩ := deeds_stageAll .stagedHost (fun _ => rfl) (fun _ _ => rfl) _ second
  obtain ⟨_, _, rfl, rejectedDomains⟩ := (does_underDeadline_step rfl).mp afterHosts
  obtain ⟨_, _, rfl, acceptedHosts⟩ := (does_underDeadline_step rfl).mp rejectedDomains
  obtain ⟨_, _, rfl, rejectedHosts⟩ := (does_underDeadline_step rfl).mp acceptedHosts
  obtain ⟨_, _, rfl, committing⟩ := (does_underDeadline_step rfl).mp rejectedHosts
  rcases does_underDeadline_bind.mp committing with
    ⟨missed, rfl⟩ | ⟨before, committed, after, rfl, answered, ending⟩
  · rw [deeds_leasedCommit missed]
    exact ⟨none, (List.append_assoc _ _ _).symm, rfl⟩
  · rw [deeds_leasedCommit answered]
    refine ⟨some committed, ?_⟩
    cases committed with
    | ok value =>
      obtain ⟨rfl, rfl⟩ := does_done.mp ending
      exact ⟨(List.append_assoc _ _ _).symm, rfl⟩
    | error source =>
      obtain ⟨rfl, rfl⟩ := does_done.mp ending
      exact ⟨(List.append_assoc _ _ _).symm, rfl⟩

theorem worked_requeue {result : Option (Except LeasedError Outcome)}
    (done : Does (Delivery.underDeadline (Leased.requeue batch tld)) deeds result) :
    ∃ reply?, deeds = [.refreshed batch.domains batch.hosts reply?] ∧
      result = reply?.map afterRefresh := by
  rcases does_underDeadline_bind.mp done with ⟨late, _⟩ | ⟨_, _, _, rfl, counted, reading⟩
  · exact absurd (deeds_leasedCountEnding late).2 (Option.some_ne_none _).symm
  rw [(deeds_leasedCountEnding counted).1]
  obtain ⟨instant, _, rfl, asking⟩ := (does_underDeadline_step rfl).mp reading
  rcases does_underDeadline_bind.mp asking with
    ⟨missed, rfl⟩ | ⟨before, refreshed, after, rfl, answered, ending⟩
  · rw [(does_underDeadline_perform.mp missed).1]
    exact ⟨none, rfl, rfl⟩
  · rw [(does_underDeadline_perform.mp answered).1]
    refine ⟨some refreshed, ?_⟩
    cases refreshed with
    | ok value =>
      obtain ⟨rfl, rfl⟩ := does_done.mp ending
      exact ⟨rfl, rfl⟩
    | error source =>
      obtain ⟨rfl, rfl⟩ := does_done.mp ending
      exact ⟨rfl, rfl⟩

theorem worked_of_does {result : Option (Except LeasedError Outcome)}
    (done : Does (Delivery.underDeadline (Leased.work batch tld)) deeds result) :
    Worked batch tld deeds result := by
  obtain ⟨known, rest, rfl, working⟩ := (does_underDeadline_step rfl).mp done
  cases known with
  | true =>
    obtain ⟨reply?, rfl, rfl⟩ := worked_publish working
    exact .published reply?
  | false =>
    obtain ⟨reply?, rfl, rfl⟩ := worked_requeue working
    exact .returned reply?

end Leased

/-! ### After a failed commit -/

/-- The ways that a failed commit can be settled. -/
inductive Settled (settings : Settings) (batch : Batch) (attempt : Nat) (source : Writer.Error) :
    List Deed → Except Error Outcome → Prop
  | early (soon : attempt < settings.retriesBeforeSplit) :
    Settled settings batch attempt source [] (.error (.commit attempt source))
  | again (late : settings.retriesBeforeSplit ≤ attempt) (single : batch.canSplit = false)
      (soon : attempt < settings.retriesBeforeGivingUp) :
    Settled settings batch attempt source [] (.error (.commit attempt source))
  | firstRefused (late : settings.retriesBeforeSplit ≤ attempt) (several : batch.canSplit = true)
      (now : Instant) (refusal : Refusal) :
    Settled settings batch attempt source
      [.enqueued (batch.split now).1 (.error refusal)] (.error (.requeue refusal))
  | secondRefused (late : settings.retriesBeforeSplit ≤ attempt) (several : batch.canSplit = true)
      (now : Instant) (refusal : Refusal) :
    Settled settings batch attempt source
      [.enqueued (batch.split now).1 (.ok ()), .enqueued (batch.split now).2 (.error refusal)]
      (.error (.requeue refusal))
  | split (late : settings.retriesBeforeSplit ≤ attempt) (several : batch.canSplit = true)
      (now : Instant) :
    Settled settings batch attempt source
      [.enqueued (batch.split now).1 (.ok ()), .enqueued (batch.split now).2 (.ok ())]
      (.ok .split)
  | gaveUp (single : batch.canSplit = false) (last : settings.retriesBeforeGivingUp ≤ attempt)
      (mails : List Deed) (told : ∀ deed ∈ mails, ∃ mail reply, deed = .mailed mail reply) :
    Settled settings batch attempt source mails (.ok .permanentlyFailed)

section Settling

variable {batch : Batch} {deeds : List Deed}

/-- Looking for a sponsor is no deed. -/
theorem silent_sponsor (kind : ItemKind) (name : String) :
    Silent (Delivery.sponsor kind name) := by
  unfold Delivery.sponsor
  cases kind with
  | domain | host =>
    refine silent_bind (silent_bind (silent_perform fun _ => rfl) fun _ => silent_done _)
      fun found => ?_
    rcases found with error | (_ | id)
    · exact silent_done _
    · exact silent_done _
    · exact silent_perform fun _ => rfl

/-- Telling the registrar is sending at most one mail. -/
theorem deeds_notify {settings : MailSettings} {result : Unit}
    (done : Does (Delivery.notify settings batch) deeds result) :
    ∀ deed ∈ deeds, ∃ mail reply, deed = .mailed mail reply := by
  have about : ∀ (kind : ItemKind) (name : String) (deeds : List Deed),
      Does (Delivery.notifyAbout settings kind name) deeds result →
      ∀ deed ∈ deeds, ∃ mail reply, deed = .mailed mail reply := by
    intro kind name deeds told
    obtain ⟨_, found, rest, rfl, looked, following⟩ := does_bind.mp told
    rw [silent_sponsor kind name _ found looked]
    rcases found with error | (_ | registrar)
    · rw [(does_done.mp following).1]
      exact List.forall_mem_nil _
    · rw [(does_done.mp following).1]
      exact List.forall_mem_nil _
    · obtain ⟨_, reply, _, rfl, sent, ended⟩ := does_bind.mp following
      rw [does_perform.mp sent, (does_done.mp ended).1]
      intro deed member
      exact ⟨_, reply, List.mem_singleton.mp member⟩
  unfold Delivery.notify at done
  split at done
  · exact about _ _ _ done
  · exact about _ _ _ done
  · rw [(does_done.mp done).1]
    exact List.forall_mem_nil _

theorem settled_of_does {settings : Settings} {attempt : Nat} {source : Writer.Error}
    {result : Except Error Outcome}
    (done : Does (Delivery.settle settings batch attempt source) deeds result) :
    Settled settings batch attempt source deeds result := by
  unfold Delivery.settle at done
  split at done
  · rename_i soon
    obtain ⟨rfl, rfl⟩ := does_done.mp done
    exact .early soon
  · rename_i late
    split at done
    · rename_i several
      obtain ⟨_, now, rest, rfl, reading, enqueuing⟩ := does_bind.mp done
      rw [does_perform.mp reading]
      obtain ⟨_, first, after, rfl, offered, following⟩ := does_bind.mp enqueuing
      rw [does_perform.mp offered]
      rcases first with refusal | value
      · obtain ⟨rfl, rfl⟩ := does_done.mp following
        exact .firstRefused (Nat.le_of_not_lt late) several now refusal
      · obtain ⟨_, second, last, rfl, offeredSecond, ending⟩ := does_bind.mp following
        rw [does_perform.mp offeredSecond]
        rcases second with refusal | value
        · obtain ⟨rfl, rfl⟩ := does_done.mp ending
          exact .secondRefused (Nat.le_of_not_lt late) several now refusal
        · obtain ⟨rfl, rfl⟩ := does_done.mp ending
          exact .split (Nat.le_of_not_lt late) several now
    · rename_i single
      rw [Bool.not_eq_true] at single
      split at done
      · rename_i soon
        obtain ⟨rfl, rfl⟩ := does_done.mp done
        exact .again (Nat.le_of_not_lt late) single soon
      · rename_i last
        obtain ⟨told, _, rest, rfl, telling, counting⟩ := does_bind.mp done
        obtain ⟨_, _, after, rfl, counted, ended⟩ := does_bind.mp counting
        obtain ⟨rfl, rfl⟩ := does_done.mp ended
        rw [silent_countEnding _ _ _ _ _ counted, List.append_nil]
        have told := deeds_notify telling
        rw [List.append_nil]
        exact .gaveUp single (Nat.le_of_not_lt last) _ told

end Settling

/-! ### Whole deliveries -/

/-- What a refresh request for a bad shard makes of a delivery. -/
def afterBadShard : Except Registry.Error Unit → Except Error Outcome
  | .ok () => .ok (.requeued .badShard)
  | .error source => .error (.registry source)

/-- What is done once the lease is given back, by what came of the work under it. -/
inductive Concluded (settings : Settings) (batch : Batch) (attempt : Nat) :
    Except LeasedError Outcome → List Deed → Except Error Outcome → Prop
  | finished (outcome : Outcome) :
    Concluded settings batch attempt (.ok outcome) [] (.ok outcome)
  | unregistered (source : Registry.Error) :
    Concluded settings batch attempt (.error (.registry source)) [] (.error (.registry source))
  | failed (source : Writer.Error) (deeds : List Deed) (result : Except Error Outcome)
      (settled : Settled settings batch attempt source deeds result) :
    Concluded settings batch attempt (.error (.commit source)) deeds result

/-- What comes of the work under the lease, where missing the deadline is a failed commit. -/
def Settings.reached (settings : Settings) :
    Option (Except LeasedError Outcome) → Except LeasedError Outcome
  | some ended => ended
  | none => .error (.commit (.timedOut settings.deadline))

/-- How the work under the lease went and what came of it, together. -/
theorem worked_cases {settings : Settings} {batch : Batch} {attempt : Nat} {tld : String}
    {work after : List Deed} {ended? : Option (Except LeasedError Outcome)}
    {result : Except Error Outcome} (worked : Worked batch tld work ended?)
    (concluded : Concluded settings batch attempt (settings.reached ended?) after result) :
    (work = publishing batch tld (some (.ok ())) ∧ after = [] ∧ result = .ok (.succeeded
        (Leased.tally tld batch.domains) (Leased.tally tld batch.hosts))) ∨
      (∃ reply? source, work = publishing batch tld reply? ∧ reply? ≠ some (.ok ()) ∧
        Settled settings batch attempt source after result) ∨
      (work = returning batch tld (some (.ok ())) ∧ after = [] ∧
        result = .ok (.requeued .unknownWriter)) ∨
      (∃ source, work = returning batch tld (some (.error source)) ∧ after = [] ∧
        result = .error (.registry source)) ∨
      (∃ source, work = returning batch tld none ∧
        Settled settings batch attempt source after result) := by
  cases worked with
  | published reply? =>
    rcases reply? with _ | (source | _)
    · cases concluded with
      | failed _ _ _ settled =>
        exact Or.inr (Or.inl ⟨none, _, rfl, (Option.some_ne_none _).symm, settled⟩)
    · cases concluded with
      | failed _ _ _ settled =>
        refine Or.inr (Or.inl ⟨_, _, rfl, ?_, settled⟩)
        intro same
        cases same
    · cases concluded with
      | finished outcome => exact Or.inl ⟨rfl, rfl, rfl⟩
  | returned reply? =>
    rcases reply? with _ | (source | _)
    · cases concluded with
      | failed _ _ _ settled => exact Or.inr (Or.inr (Or.inr (Or.inr ⟨_, rfl, settled⟩)))
    · cases concluded with
      | unregistered _ => exact Or.inr (Or.inr (Or.inr (Or.inl ⟨_, rfl, rfl, rfl⟩)))
    · cases concluded with
      | finished outcome => exact Or.inr (Or.inr (Or.inl ⟨rfl, rfl, rfl⟩))

/-- What is done under the lease is among all that is done. -/
theorem mem_of_mem_work {tld resource name : String} {millis : Nat}
    {asked : Except Registry.Error (Option Nat)}
    {acquired : Except Lock.Error (Option Lock.Handle)} {handle : Lock.Handle}
    {released : Except Lock.Error Unit} {work after : List Deed} {deed : Deed}
    (member : deed ∈ work) :
    deed ∈ Deed.asked tld asked :: .acquired resource name millis acquired ::
      (work ++ .released handle released :: after) :=
  List.mem_cons_of_mem _ (List.mem_cons_of_mem _ (List.mem_append_left _ member))

/-- The ways that a delivery can go. -/
inductive Delivered (settings : Settings) (batch : Batch) (attempt : Nat) :
    List Deed → Except Error Outcome → Prop
  | unanswered (source : Registry.Error) :
    Delivered settings batch attempt [.asked (Name.bare batch.tld) (.error source)]
      (.error (.registry source))
  | misplaced (configured : Option Nat) (reply : Except Registry.Error Unit)
      (stale : ∀ shard, Shard.resolve batch.lockIndex batch.lockCount = .ok shard →
        some shard.count ≠ configured) :
    Delivered settings batch attempt
      [.asked (Name.bare batch.tld) (.ok configured),
        .refreshed batch.domains batch.hosts (some reply)]
      (afterBadShard reply)
  | unlocked (shard : Shard) (source : Lock.Error)
      (resolved : Shard.resolve batch.lockIndex batch.lockCount = .ok shard) :
    Delivered settings batch attempt
      [.asked (Name.bare batch.tld) (.ok (some shard.count)),
        .acquired (Name.bare batch.tld) shard.lockName (settings.leaseSeconds * 1000)
          (.error source)]
      (.error (.lock source))
  | excluded (shard : Shard)
      (resolved : Shard.resolve batch.lockIndex batch.lockCount = .ok shard) :
    Delivered settings batch attempt
      [.asked (Name.bare batch.tld) (.ok (some shard.count)),
        .acquired (Name.bare batch.tld) shard.lockName (settings.leaseSeconds * 1000) (.ok none)]
      (.error (.lockUnavailable (Name.bare batch.tld) shard.lockName))
  | leased (shard : Shard) (handle : Lock.Handle) (work after : List Deed)
      (ended? : Option (Except LeasedError Outcome)) (reply : Except Lock.Error Unit)
      (result : Except Error Outcome)
      (resolved : Shard.resolve batch.lockIndex batch.lockCount = .ok shard)
      (worked : Worked batch (Name.bare batch.tld) work ended?)
      (concluded : Concluded settings batch attempt (settings.reached ended?) after result) :
    Delivered settings batch attempt
      (.asked (Name.bare batch.tld) (.ok (some shard.count)) ::
        .acquired (Name.bare batch.tld) shard.lockName (settings.leaseSeconds * 1000)
          (.ok (some handle)) :: (work ++ .released handle reply :: after))
      result

section Whole

variable {settings : Settings} {batch : Batch} {attempt : Nat} {deeds : List Deed}
  {result : Except Error Outcome}

theorem does_workUnderLease {tld : String} {handle : Lock.Handle}
    {ended : Except LeasedError Outcome}
    (done : Does (Delivery.workUnderLease settings batch tld handle) deeds ended) :
    ∃ work ended? reply, Worked batch tld work ended? ∧
      deeds = work ++ [.released handle reply] ∧ ended = settings.reached ended? := by
  have givenBack : ∀ (value : Except LeasedError Outcome) (deeds : List Deed),
      Does ((Delivery.perform (.release handle)).bind fun _ => .done value) deeds ended →
      ∃ reply, deeds = [.released handle reply] ∧ ended = value := by
    intro value deeds releasing
    obtain ⟨_, reply, _, rfl, released, finish⟩ := does_bind.mp releasing
    obtain ⟨rfl, rfl⟩ := does_done.mp finish
    exact ⟨reply, by rw [does_perform.mp released]; rfl, rfl⟩
  obtain ⟨_, _, _, rfl, started, working⟩ := does_bind.mp done
  obtain ⟨work, ended?, _, rfl, worked, following⟩ := does_bind.mp working
  rw [does_perform.mp started]
  refine ⟨work, ended?, ?_⟩
  cases ended? with
  | none =>
    obtain ⟨_, _, rest, rfl, counted, releasing⟩ := does_bind.mp following
    obtain ⟨reply, rfl, rfl⟩ :=
      givenBack (.error (.commit (.timedOut settings.deadline))) rest releasing
    rw [silent_countEnding _ _ _ _ _ counted]
    exact ⟨reply, worked_of_does worked, rfl, rfl⟩
  | some value =>
    obtain ⟨reply, rfl, rfl⟩ := givenBack value _ following
    exact ⟨reply, worked_of_does worked, rfl, rfl⟩

theorem concluded_of_does {ended : Except LeasedError Outcome}
    (done : Does (match ended with
      | .ok outcome => .done (.ok outcome)
      | .error (.registry source) => .done (.error (.registry source))
      | .error (.commit source) => Delivery.settle settings batch attempt source) deeds result) :
    Concluded settings batch attempt ended deeds result := by
  rcases ended with (source | source) | outcome
  · exact .failed source deeds result (settled_of_does done)
  · obtain ⟨rfl, rfl⟩ := does_done.mp done
    exact .unregistered source
  · obtain ⟨rfl, rfl⟩ := does_done.mp done
    exact .finished outcome

theorem does_requeue (tld : String) (done : Does (Delivery.requeue batch tld) deeds result) :
    ∃ reply, deeds = [.refreshed batch.domains batch.hosts (some reply)] ∧
      result = afterBadShard reply := by
  obtain ⟨_, _, _, rfl, counted, reading⟩ := does_bind.mp done
  obtain ⟨_, instant, _, rfl, read, asking⟩ := does_bind.mp reading
  obtain ⟨_, reply, _, rfl, answered, following⟩ := does_bind.mp asking
  rw [silent_countEnding _ _ _ _ _ counted, does_perform.mp read, does_perform.mp answered]
  refine ⟨reply, ?_⟩
  rcases reply with source | value
  · obtain ⟨rfl, rfl⟩ := does_done.mp following
    exact ⟨rfl, rfl⟩
  · obtain ⟨rfl, rfl⟩ := does_done.mp following
    exact ⟨rfl, rfl⟩

/-- Every delivery goes in one of these ways. -/
theorem delivered_of_does (done : Does (Delivery.publish settings batch attempt) deeds result) :
    Delivered settings batch attempt deeds result := by
  obtain ⟨_, configured, rest, rfl, asked, following⟩ := does_bind.mp done
  rw [does_perform.mp asked]
  rcases configured with source | configured
  · obtain ⟨rfl, rfl⟩ := does_done.mp following
    exact .unanswered source
  · have requeued : (∀ shard, Shard.resolve batch.lockIndex batch.lockCount = .ok shard →
        some shard.count ≠ configured) →
        Does (Delivery.requeue batch (Name.bare batch.tld)) rest result →
        Delivered settings batch attempt (.asked (Name.bare batch.tld) (.ok configured) :: rest)
          result := by
      intro stale requeuing
      obtain ⟨reply, rfl, rfl⟩ := does_requeue _ requeuing
      exact .misplaced configured reply stale
    cases resolved : Shard.resolve batch.lockIndex batch.lockCount with
    | error fault =>
      rw [resolved] at following
      refine requeued (fun shard found => ?_) following
      rw [resolved] at found
      cases found
    | ok shard =>
      rw [resolved] at following
      dsimp only at following
      split at following
      · rename_i same
        subst same
        obtain ⟨_, acquired, others, rfl, acquiring, holding⟩ := does_bind.mp following
        rw [does_perform.mp acquiring]
        rcases acquired with source | (_ | handle)
        · obtain ⟨rfl, rfl⟩ := does_done.mp holding
          exact .unlocked shard source resolved
        · obtain ⟨_, _, _, rfl, counted, finish⟩ := does_bind.mp holding
          obtain ⟨rfl, rfl⟩ := does_done.mp finish
          rw [silent_countEnding _ _ _ _ _ counted]
          exact .excluded shard resolved
        · obtain ⟨_, ended, after, rfl, working, following⟩ := does_bind.mp holding
          obtain ⟨work, ended?, reply, worked, rfl, rfl⟩ := does_workUnderLease working
          rw [List.append_assoc]
          exact .leased shard handle work after ended? reply result resolved worked
            (concluded_of_does following)
      · rename_i stale
        refine requeued (fun other found => ?_) following
        rw [resolved] at found
        cases found
        exact stale

end Whole

end Zonecast.Publish
