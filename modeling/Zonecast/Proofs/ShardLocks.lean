/-
Which lock a batch is published under. A delivery brings the TLD of its batch into bare form once.
That form names the lock's row, together with the shard, and the writer is created for it; the zone
is its canonical form. So deliveries that meet in a lock row write the same shard of the same zone.

The converse needs the bare form to stay when it is taken again, as it does wherever no blank stands
before the dots that the TLD ends in. Such a blank is not trimmed from the row, for the dots are
dropped after trimming, but it is from the zone: then one shard of a zone has two rows.
-/
import Zonecast.Proofs.Deliveries
import Zonecast.Proofs.QueueForms
import Zonecast.Proofs.RegisteredDomains
import Zonecast.Registry.Find

namespace Zonecast

open Text

namespace Name

/-- No blank stands before the dots that a name ends in. -/
def EndsPlainly (name : String) : Prop :=
  ∀ c, (bareChars name.toList).getLast? = some c → isBlank c = false

/-- The zones of two bare forms tell the bare forms, where they end plainly. -/
theorem bare_eq_of_canonical_bare_eq {first second : String} (plainFirst : EndsPlainly first)
    (plainSecond : EndsPlainly second)
    (same : canonical (bare first) = canonical (bare second)) : bare first = bare second := by
  have spelled := congrArg String.toList same
  simp only [toList_canonical, bare, String.toList_ofList, bareChars_bareChars _ plainFirst,
    bareChars_bareChars _ plainSecond, List.append_cancel_right_eq] at spelled
  rw [bare, bare, spelled]

end Name

namespace Publish

open Process Writer

/-! ### Names of locks -/

theorem Shard.lockName_eq (shard : Shard) : shard.lockName =
    "DNS updates-lock " ++ toString shard.index ++ " of " ++ toString shard.count := rfl

/-- A shard's lock name tells the shard: its numbers end where the next blank stands. -/
theorem Shard.eq_of_lockName_eq {first second : Shard} (same : first.lockName = second.lockName) :
    first = second := by
  have clean (number : Nat) : ' ' ∉ (toString number).toList := by
    rw [Nat.toString_eq_ofList_toDigits, String.toList_ofList]
    intro member
    exact absurd (Nat.isDigit_of_mem_toDigits (by decide) (by decide) member) (by decide)
  have readBack {number other : Nat}
      (written : (toString number).toList = (toString other).toList) : number = other := by
    rw [Nat.toString_eq_ofList_toDigits, Nat.toString_eq_ofList_toDigits, String.toList_ofList,
      String.toList_ofList] at written
    rw [← Nat.ofDigitChars_ten_toDigits (n := number), written, Nat.ofDigitChars_ten_toDigits]
  have blank : " of ".toList = ' ' :: "of ".toList := by decide
  have texts := congrArg String.toList same
  simp only [lockName_eq, String.toList_append, List.append_assoc] at texts
  have numbers := List.append_cancel_left texts
  rw [blank, List.cons_append, List.cons_append] at numbers
  have cut := congrArg (pieces ' ') numbers
  rw [pieces_append ' ' _ _ (clean first.index), pieces_append ' ' _ _ (clean second.index)] at cut
  have indices := (List.cons.inj cut).1
  rw [indices] at numbers
  have counts := List.append_cancel_left (List.cons.inj (List.append_cancel_left numbers)).2
  have sameIndex : first.index = second.index := readBack indices
  have sameCount : first.count = second.count := readBack counts
  cases first
  cases second
  cases sameIndex
  cases sameCount
  rfl

/-- A shard is what the form says, since a form's numbers fit it. -/
theorem Shard.numbers_of_resolve {index count : Int64} {shard : Shard}
    (resolved : Shard.resolve index count = .ok shard) :
    (shard.index : Int) = index.toInt ∧ (shard.count : Int) = count.toInt := by
  unfold resolve at resolved
  split at resolved
  · rename_i within
    injection resolved with same
    subst same
    dsimp only
    omega
  · cases resolved

/-! ### Rows and zones of a delivery -/

namespace Deed

/-- The lock row that is asked for. -/
def lockRow? : Deed → Option (String × String)
  | .acquired resource name _ _ => some (resource, name)
  | _ => none

/-- The zone of the writer that is created. -/
def writtenZone? : Deed → Option String
  | .created _ tld _ => some (ZoneWriter.create tld).zone
  | _ => none

end Deed

section Delivered

variable {settings : Settings} {batch : Batch} {attempt : Nat} {deeds : List Deed}

/-- Under the lease no lock is asked for, and the writer is created for the delivery's TLD. -/
theorem places_of_worked {tld : String} {ended? : Option (Except LeasedError Outcome)}
    (worked : Worked batch tld deeds ended?) :
    ∀ deed ∈ deeds, deed.lockRow? = none ∧
      ∀ zone, deed.writtenZone? = some zone → zone = Name.canonical tld := by
  intro deed member
  cases worked with
  | published reply? =>
    simp only [publishing, stagings, tallies, List.mem_cons, List.mem_append, List.mem_map,
      List.not_mem_nil, or_false] at member
    rcases member with rfl | (⟨_, _, rfl⟩ | ⟨_, _, rfl⟩) | (rfl | rfl | rfl | rfl) | rfl
    · exact ⟨rfl, fun zone same => (Option.some.inj same).symm⟩
    all_goals exact ⟨rfl, fun _ same => by cases same⟩
  | returned reply? =>
    simp only [returning, List.mem_cons, List.not_mem_nil, or_false] at member
    rcases member with rfl | rfl
    · exact ⟨rfl, fun zone same => (Option.some.inj same).symm⟩
    · exact ⟨rfl, fun _ same => by cases same⟩

/-- After the lease is given back, neither happens. -/
theorem places_of_concluded {ended : Except LeasedError Outcome} {result : Except Error Outcome}
    (concluded : Concluded settings batch attempt ended deeds result) :
    ∀ deed ∈ deeds, deed.lockRow? = none ∧ deed.writtenZone? = none := by
  intro deed member
  cases concluded with
  | finished | unregistered => cases member
  | failed source _ _ settled =>
    cases settled with
    | early | again => cases member
    | firstRefused =>
      obtain rfl := List.mem_singleton.mp member
      exact ⟨rfl, rfl⟩
    | secondRefused | split =>
      rcases List.mem_pair.mp member with rfl | rfl
      · exact ⟨rfl, rfl⟩
      · exact ⟨rfl, rfl⟩
    | gaveUp _ _ _ told =>
      obtain ⟨mail, reply, rfl⟩ := told deed member
      exact ⟨rfl, rfl⟩

/-- A delivery asks for one lock row at most, that of its TLD and shard, and creates writers for
the zone of its TLD. -/
theorem places_of_does {result : Except Error Outcome}
    (done : Does (Delivery.publish settings batch attempt) deeds result) :
    ∀ deed ∈ deeds,
      (∀ row, deed.lockRow? = some row → ∃ shard,
        Shard.resolve batch.lockIndex batch.lockCount = .ok shard ∧
          row = (Name.bare batch.tld, shard.lockName)) ∧
      ∀ zone, deed.writtenZone? = some zone →
        zone = Name.canonical (Name.bare batch.tld) := by
  intro deed member
  have taken (shard : Shard) (millis : Nat) (reply : Except Lock.Error (Option Lock.Handle))
      (resolved : Shard.resolve batch.lockIndex batch.lockCount = .ok shard) (row)
      (asked : (Deed.acquired (Name.bare batch.tld) shard.lockName millis reply).lockRow? =
        some row) : ∃ shard, Shard.resolve batch.lockIndex batch.lockCount = .ok shard ∧
          row = (Name.bare batch.tld, shard.lockName) :=
    ⟨shard, resolved, (Option.some.inj asked).symm⟩
  cases delivered_of_does done with
  | unanswered =>
    obtain rfl := List.mem_singleton.mp member
    exact ⟨nofun, nofun⟩
  | misplaced =>
    rcases List.mem_pair.mp member with rfl | rfl
    · exact ⟨nofun, nofun⟩
    · exact ⟨nofun, nofun⟩
  | unlocked shard source resolved =>
    rcases List.mem_pair.mp member with rfl | rfl
    · exact ⟨nofun, nofun⟩
    · exact ⟨taken shard _ _ resolved, nofun⟩
  | excluded shard resolved =>
    rcases List.mem_pair.mp member with rfl | rfl
    · exact ⟨nofun, nofun⟩
    · exact ⟨taken shard _ _ resolved, nofun⟩
  | leased shard handle work after ended? reply _ resolved worked concluded =>
    simp only [List.mem_cons, List.mem_append] at member
    rcases member with rfl | rfl | inWork | rfl | later
    · exact ⟨nofun, nofun⟩
    · exact ⟨taken shard _ _ resolved, nofun⟩
    · obtain ⟨unasked, written⟩ := places_of_worked worked deed inWork
      exact ⟨fun row asked => absurd asked (unasked ▸ nofun), written⟩
    · exact ⟨nofun, nofun⟩
    · obtain ⟨unasked, unwritten⟩ := places_of_concluded concluded deed later
      exact ⟨fun row asked => absurd asked (unasked ▸ nofun),
        fun zone created => absurd created (unwritten ▸ nofun)⟩

end Delivered

/-! ### Forms -/

/-- A batch carries its form's TLD, trimmed and made small. -/
theorem tld_of_ofForm {form : Form} {batch : Batch} (accepted : Batch.ofForm form = .ok batch) :
    batch.tld = lower (trim form.tld) :=
  ((Batch.ofForm_eq_ok_iff form batch).mp accepted).tld

theorem endsPlainly_of_ofForm {form : Form} {batch : Batch}
    (accepted : Batch.ofForm form = .ok batch) (plain : Name.EndsPlainly form.tld) :
    Name.EndsPlainly batch.tld := by
  rw [Name.EndsPlainly, tld_of_ofForm accepted, Name.bareChars_lower_trim]
  exact plain

/-- Deliveries of batches that were read from forms and that take a lock and create a writer: where
they take the same lock row, they write the same zone under the same shard index and count. Where
they write the same zone under the same shard index and count and no blank stands before the dots
that the TLDs of the forms end in, they take the same lock row. -/
theorem lock_iff_zone {firstForm secondForm : Form} {first second : Batch}
    (firstAccepted : Batch.ofForm firstForm = .ok first)
    (secondAccepted : Batch.ofForm secondForm = .ok second)
    {settings : Settings} {firstAttempt secondAttempt : Nat} {firstDeeds secondDeeds : List Deed}
    {firstResult secondResult : Except Error Outcome}
    (firstDone : Does (Delivery.publish settings first firstAttempt) firstDeeds firstResult)
    (secondDone : Does (Delivery.publish settings second secondAttempt) secondDeeds secondResult)
    {firstRow secondRow : String × String} {firstZone secondZone : String}
    (firstTaken : firstRow ∈ firstDeeds.filterMap Deed.lockRow?)
    (secondTaken : secondRow ∈ secondDeeds.filterMap Deed.lockRow?)
    (firstWritten : firstZone ∈ firstDeeds.filterMap Deed.writtenZone?)
    (secondWritten : secondZone ∈ secondDeeds.filterMap Deed.writtenZone?) :
    (firstRow = secondRow → firstZone = secondZone ∧ first.lockIndex = second.lockIndex ∧
      first.lockCount = second.lockCount) ∧
    (Name.EndsPlainly firstForm.tld → Name.EndsPlainly secondForm.tld →
      firstZone = secondZone ∧ first.lockIndex = second.lockIndex ∧
        first.lockCount = second.lockCount → firstRow = secondRow) := by
  obtain ⟨_, listed, asked⟩ := List.mem_filterMap.mp firstTaken
  obtain ⟨firstShard, firstResolved, rfl⟩ := (places_of_does firstDone _ listed).1 _ asked
  obtain ⟨_, listed, asked⟩ := List.mem_filterMap.mp secondTaken
  obtain ⟨secondShard, secondResolved, rfl⟩ := (places_of_does secondDone _ listed).1 _ asked
  obtain ⟨_, listed, created⟩ := List.mem_filterMap.mp firstWritten
  obtain rfl := (places_of_does firstDone _ listed).2 _ created
  obtain ⟨_, listed, created⟩ := List.mem_filterMap.mp secondWritten
  obtain rfl := (places_of_does secondDone _ listed).2 _ created
  constructor
  · intro same
    obtain ⟨sameTld, sameName⟩ := Prod.mk.inj same
    obtain rfl := Shard.eq_of_lockName_eq sameName
    obtain ⟨firstIndex, firstCount⟩ := Shard.numbers_of_resolve firstResolved
    obtain ⟨secondIndex, secondCount⟩ := Shard.numbers_of_resolve secondResolved
    refine ⟨by rw [sameTld], ?_, ?_⟩
    · exact Int64.toInt_inj.mp (firstIndex.symm.trans secondIndex)
    · exact Int64.toInt_inj.mp (firstCount.symm.trans secondCount)
  · rintro firstPlain secondPlain ⟨sameZone, sameIndex, sameCount⟩
    rw [sameIndex, sameCount, secondResolved] at firstResolved
    obtain rfl := Except.ok.inj firstResolved
    rw [Name.bare_eq_of_canonical_bare_eq (endsPlainly_of_ofForm firstAccepted firstPlain)
      (endsPlainly_of_ofForm secondAccepted secondPlain) sameZone]

/-! ### Spellings of one TLD -/

/-- A form for a TLD with one shard. -/
def exampleForm (tld : String) : Form where
  tld := tld
  dnsWriter := "PowerDnsWriter"
  lockIndex := 1
  numPublishLocks := 1
  domains := "d1.test"
  hosts := ""
  itemsCreated := "2025-06-01T11:58:00Z"
  enqueued := "2025-06-01T11:59:30Z"

/-- The batch that such a form carries. -/
def exampleBatch (tld : String) : Batch where
  tld := tld
  writer := "PowerDnsWriter"
  lockIndex := 1
  lockCount := 1
  domains := ["d1.test"]
  hosts := []
  enqueuedAt := ⟨1748779170, 0⟩
  itemsCreatedAt := ⟨1748779080, 0⟩

/-- A registry that knows one TLD. -/
def exampleTables : Registry.Tables :=
  { Registry.Tables.empty with tlds := [⟨"test", 1⟩] }

/-- The registry answers from the tables; the lock is free, the writer is known and commits. -/
def exampleReply : (request : DeliveryCall) → Zonecast.Delivery.Reply request
  | .registry request => (exampleTables.serve request).1
  | request => (⟨1, true, some (.ok ()), none⟩ : Climate).reply request

def exampleDelivery (tld : String) : Process Delivery (Except Error Outcome) :=
  Delivery.publish ⟨180, 3, 20, ⟨"DNS update failed", "", "Example Registry",
    "support@registry.test", "ops@registry.test"⟩⟩ (exampleBatch tld) 0

/-- What is done when such a batch is delivered. -/
def exampleDeeds (tld : String) : List Deed :=
  ledger ((exampleDelivery tld).trace exampleReply)

theorem does_exampleDelivery (tld : String) : Does (exampleDelivery tld) (exampleDeeds tld)
    ((exampleDelivery tld).answered exampleReply) := by
  have run := runs_trace exampleReply (exampleDelivery tld)
  exact ⟨_, run, by rw [exampleDeeds]⟩

/-- Case, blanks around the TLD and dots after it make no difference. -/
theorem one_lock_exampleForms :
    ∃ firstRow ∈ (exampleDeeds "test").filterMap Deed.lockRow?,
      ∃ secondRow ∈ (exampleDeeds "test..").filterMap Deed.lockRow?,
        "test." ∈ (exampleDeeds "test").filterMap Deed.writtenZone? ∧
        "test." ∈ (exampleDeeds "test..").filterMap Deed.writtenZone? ∧ firstRow = secondRow := by
  have firstAccepted : Batch.ofForm (exampleForm " TEST") = .ok (exampleBatch "test") := by
    decide +kernel
  have secondAccepted : Batch.ofForm (exampleForm "test..") = .ok (exampleBatch "test..") := by
    decide +kernel
  have firstTaken : ("test", "DNS updates-lock 1 of 1") ∈
      (exampleDeeds "test").filterMap Deed.lockRow? := by decide +kernel
  have secondTaken : ("test", "DNS updates-lock 1 of 1") ∈
      (exampleDeeds "test..").filterMap Deed.lockRow? := by decide +kernel
  have firstWritten : "test." ∈ (exampleDeeds "test").filterMap Deed.writtenZone? := by
    decide +kernel
  have secondWritten : "test." ∈ (exampleDeeds "test..").filterMap Deed.writtenZone? := by
    decide +kernel
  have plain (name : String) (last : (Name.bareChars name.toList).getLast? = some 't') :
      Name.EndsPlainly name := by
    intro c final
    obtain rfl : 't' = c := Option.some.inj (last.symm.trans final)
    decide
  refine ⟨_, firstTaken, _, secondTaken, firstWritten, secondWritten, ?_⟩
  exact (lock_iff_zone firstAccepted secondAccepted (does_exampleDelivery "test")
    (does_exampleDelivery "test..") firstTaken secondTaken firstWritten secondWritten).2
    (plain " TEST" (by decide)) (plain "test.." (by decide)) ⟨rfl, rfl, rfl⟩

/-- A blank before the last dot does: it passes the registry's count, the zone and the shard are the
same, and the lock is another. -/
theorem two_locks_exampleForms :
    Batch.ofForm (exampleForm "test") = .ok (exampleBatch "test") ∧
      Batch.ofForm (exampleForm "test .") = .ok (exampleBatch "test .") ∧
      (∃ result, Does (exampleDelivery "test") (exampleDeeds "test") result) ∧
      (∃ result, Does (exampleDelivery "test .") (exampleDeeds "test .") result) ∧
      (exampleDeeds "test").filterMap Deed.writtenZone? = ["test."] ∧
      (exampleDeeds "test .").filterMap Deed.writtenZone? = ["test."] ∧
      (exampleDeeds "test").filterMap Deed.lockRow? = [("test", "DNS updates-lock 1 of 1")] ∧
      (exampleDeeds "test .").filterMap Deed.lockRow? = [("test ", "DNS updates-lock 1 of 1")] := by
  refine ⟨by decide +kernel, by decide +kernel, ⟨_, does_exampleDelivery "test"⟩,
    ⟨_, does_exampleDelivery "test ."⟩, ?_, ?_, ?_, ?_⟩
  · decide +kernel
  · decide +kernel
  · decide +kernel
  · decide +kernel

end Publish

end Zonecast
