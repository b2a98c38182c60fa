/-
Batches through the queue and back. A form is read as it was written, since its pairs are and since
integers are. A batch that was made of a form has texts that are trimmed, names without a comma or
a capital, each of them once, and times that can be written. So the form that it is put into is
read as the same batch, with its times cut down to milliseconds, and the form of either half of it
is read as that half. Nothing is normalised a second time, and no name is lost on the way.
-/
import Zonecast.Proofs.Digits
import Zonecast.Proofs.Distinct
import Zonecast.Proofs.EncodedText
import Zonecast.Proofs.Halves
import Zonecast.Proofs.Timestamps
import Zonecast.Publish.Form

namespace Zonecast.Publish

open Text Time

/-! ### Forms as text -/

namespace Form

theorem readInt64_toInt (number : Int64) : readInt64 (toString number.toInt) = .ok number := by
  rw [readInt64_toString number.minValue_le_toInt number.toInt_le, Int64.ofInt_toInt]

/-- A field that was not seen before and holds what it should is not at fault. -/
theorem firstFault?_cons {seen : List String} {field value : String}
    (known : fieldNames.contains field = true) (fresh : seen.contains field = false)
    (sound : isNumber field = true → ∃ number, readInt64 value = .ok number)
    (rest : List (String × String)) :
    firstFault? seen ((field, value) :: rest) = firstFault? (field :: seen) rest := by
  rw [firstFault?, if_pos known, fresh, if_neg Bool.false_ne_true]
  by_cases number : isNumber field = true
  · obtain ⟨read, done⟩ := sound number
    rw [done, number]
  · rw [Bool.not_eq_true] at number
    rw [number]

/-- No field of a form that was written is at fault. -/
theorem firstFault?_toPairs (form : Form) : firstFault? [] form.toPairs = none := by
  have isText {field : String} (other : isNumber field = false) {value : String}
      (number : isNumber field = true) : ∃ read, readInt64 value = .ok read := by
    rw [other] at number
    cases number
  rw [toPairs, firstFault?_cons (by decide) (by decide) (isText (by decide)),
    firstFault?_cons (by decide) (by decide) (isText (by decide)),
    firstFault?_cons (by decide) (by decide) fun _ => ⟨_, readInt64_toInt _⟩,
    firstFault?_cons (by decide) (by decide) fun _ => ⟨_, readInt64_toInt _⟩,
    firstFault?_cons (by decide) (by decide) (isText (by decide)),
    firstFault?_cons (by decide) (by decide) (isText (by decide)),
    firstFault?_cons (by decide) (by decide) (isText (by decide)),
    firstFault?_cons (by decide) (by decide) (isText (by decide)), firstFault?]

/-- The fields of a form are read as they were written. -/
theorem ofPairs_toPairs (form : Form) : ofPairs form.toPairs = .ok form := by
  have lockIndex : requiredNumber form.toPairs "lockIndex" = .ok form.lockIndex := by
    show (readInt64 (toString form.lockIndex.toInt)).mapError _ = _
    rw [readInt64_toInt]
    rfl
  have lockCount : requiredNumber form.toPairs "numPublishLocks" = .ok form.numPublishLocks := by
    show (readInt64 (toString form.numPublishLocks.toInt)).mapError _ = _
    rw [readInt64_toInt]
    rfl
  rw [ofPairs, firstFault?_toPairs, lockIndex, lockCount]
  rfl

/-- A form is read as it was written. -/
theorem read_write (form : Form) : read form.write = .ok form := by
  have some : form.toPairs ≠ [] := List.cons_ne_nil _ _
  rw [read, write, Urlencoded.decodePairs_encodePairs _ some, ofPairs_toPairs]

end Form

/-! ### Lists of names -/

namespace Batch

/-- Names as a batch holds them. -/
structure Clean (names : List String) : Prop where
  trimmed : ∀ name ∈ names, trim name = name
  small : ∀ name ∈ names, lower name = name
  filled : ∀ name ∈ names, name ≠ ""
  commaFree : ∀ name ∈ names, ',' ∉ name.toList
  single : names.Nodup

theorem Clean.sublist {names fewer : List String} (clean : Clean names)
    (within : fewer.Sublist names) : Clean fewer where
  trimmed name member := clean.trimmed name (within.subset member)
  small name member := clean.small name (within.subset member)
  filled name member := clean.filled name (within.subset member)
  commaFree name member := clean.commaFree name (within.subset member)
  single := clean.single.sublist within

/-- The names between the commas of a list, trimmed and made small, without empty ones. -/
def pieceNames (list : String) : List String :=
  ((Text.split ',' list).map fun name => lower (trim name)).filter (· != "")

/-- The names of a list as a batch takes them: all of them once, where they first stand. -/
structure Gathered (list : String) (names : List String) : Prop where
  clean : Clean names
  mem_iff : ∀ name, name ∈ names ↔ name ∈ pieceNames list
  ordered : names.Pairwise fun earlier later =>
    (pieceNames list).idxOf earlier < (pieceNames list).idxOf later

theorem clean_readNames (list : String) : Clean (readNames list) := by
  have origin : ∀ name ∈ readNames list, name ≠ "" ∧
      ∃ piece ∈ Text.split ',' list, lower (trim piece) = name := by
    intro name member
    rw [readNames, mem_distinct, List.mem_filter, bne_iff_ne, List.mem_map] at member
    exact member.symm
  constructor
  case trimmed =>
    intro name member
    obtain ⟨_, piece, _, rfl⟩ := origin name member
    rw [trim_lower, trim_trim]
  case small =>
    intro name member
    obtain ⟨_, piece, _, rfl⟩ := origin name member
    exact lower_lower _
  case filled => exact fun name member => (origin name member).1
  case commaFree =>
    intro name member held
    obtain ⟨_, piece, cut, rfl⟩ := origin name member
    obtain ⟨chars, inPieces, rfl⟩ := List.mem_map.mp cut
    rw [lower, trim, String.toList_ofList, String.toList_ofList, String.toList_ofList] at held
    obtain ⟨c, kept, same⟩ := List.mem_map.mp held
    rw [lowerChar_eq_iff c ',' (by decide)] at same
    subst same
    exact not_mem_of_mem_pieces ',' list.toList chars inPieces (mem_of_mem_trimChars kept)
  case single => exact nodup_distinct _

theorem gathered_readNames (list : String) : Gathered list (readNames list) where
  clean := clean_readNames list
  mem_iff := mem_distinct (pieceNames list)
  ordered := pairwise_distinct (pieceNames list)

/-- Clean names that are joined are read as they were. -/
theorem readNames_join {names : List String} (clean : Clean names) :
    readNames (join ',' names) = names := by
  by_cases none : names = []
  · subst none
    decide
  · have cut : Text.split ',' (join ',' names) = names := by
      have pieces := pieces_joinPieces ',' (names.map String.toList) (by simpa using none) (by
        intro part member
        obtain ⟨name, inNames, rfl⟩ := List.mem_map.mp member
        exact clean.commaFree name inNames)
      rw [Text.split, join, String.toList_ofList, pieces, List.map_map]
      exact (List.map_congr_left fun name _ => String.ofList_toList).trans (List.map_id _)
    have same : ∀ name ∈ names, lower (trim name) = name := fun name member => by
      rw [clean.trimmed name member, clean.small name member]
    have filled : ∀ name ∈ names, (name != "") = true :=
      fun name member => bne_iff_ne.mpr (clean.filled name member)
    rw [readNames, cut, List.map_congr_left same, List.map_id', List.filter_eq_self.mpr filled,
      distinct_of_nodup clean.single]

/-! ### Batches as forms -/

/-- A batch as it is made of a form. -/
structure Made (form : Form) (batch : Batch) : Prop where
  someTld : trim form.tld ≠ ""
  someWriter : trim form.dnsWriter ≠ ""
  tld : batch.tld = lower (trim form.tld)
  writer : batch.writer = trim form.dnsWriter
  lockIndex : batch.lockIndex = form.lockIndex
  lockCount : batch.lockCount = form.numPublishLocks
  domains : batch.domains = readNames form.domains
  hosts : batch.hosts = readNames form.hosts
  enqueuedAt : readTimestamp? (trim form.enqueued) = some batch.enqueuedAt
  itemsCreatedAt : readTimestamp? (trim form.itemsCreated) = some batch.itemsCreatedAt

theorem readTime_eq_ok_iff {field value : String} {instant : Instant} :
    readTime field value = .ok instant ↔ readTimestamp? (trim value) = some instant := by
  unfold readTime
  cases readTimestamp? (trim value) with
  | none => exact ⟨nofun, nofun⟩
  | some read => rw [Except.ok.injEq, Option.some.injEq]

theorem ofForm_eq_ok_iff (form : Form) (batch : Batch) :
    ofForm form = .ok batch ↔ Made form batch := by
  have bound {α β : Type} {step : Except Batch.Error α} {next : α → Except Batch.Error β}
      {value : β} (done : step >>= next = .ok value) :
      ∃ found, step = .ok found ∧ next found = .ok value := by
    cases step with
    | error fault => cases done
    | ok found => exact ⟨found, rfl, done⟩
  unfold ofForm
  constructor
  · intro accepted
    by_cases blankTld : trim form.tld = ""
    · rw [if_pos blankTld] at accepted
      cases accepted
    · rw [if_neg blankTld] at accepted
      by_cases blankWriter : trim form.dnsWriter = ""
      · rw [if_pos blankWriter] at accepted
        cases accepted
      · rw [if_neg blankWriter] at accepted
        obtain ⟨enqueuedAt, enqueued, accepted⟩ := bound accepted
        obtain ⟨itemsCreatedAt, created, accepted⟩ := bound accepted
        obtain rfl := Except.ok.inj accepted
        exact ⟨blankTld, blankWriter, rfl, rfl, rfl, rfl, rfl, rfl,
          readTime_eq_ok_iff.mp enqueued, readTime_eq_ok_iff.mp created⟩
  · intro made
    rw [if_neg made.someTld, if_neg made.someWriter, readTime_eq_ok_iff.mpr made.enqueuedAt,
      readTime_eq_ok_iff.mpr made.itemsCreatedAt, ← made.tld, ← made.writer, ← made.lockIndex,
      ← made.lockCount, ← made.domains, ← made.hosts]
    rfl

/-- A batch that can be put into a form without a loss but that of fractions of milliseconds. -/
structure Portable (batch : Batch) : Prop where
  tld : batch.tld ≠ "" ∧ trim batch.tld = batch.tld ∧ lower batch.tld = batch.tld
  writer : batch.writer ≠ "" ∧ trim batch.writer = batch.writer
  domains : Clean batch.domains
  hosts : Clean batch.hosts
  enqueuedAt : batch.enqueuedAt.Writable ∧ batch.enqueuedAt.HasPlainYear
  itemsCreatedAt : batch.itemsCreatedAt.Writable ∧ batch.itemsCreatedAt.HasPlainYear

/-- The batch with its times cut down to milliseconds. -/
def wholeMillis (batch : Batch) : Batch :=
  { batch with
    enqueuedAt := batch.enqueuedAt.wholeMillis
    itemsCreatedAt := batch.itemsCreatedAt.wholeMillis }

/-- A batch comes back from its form, and the form from its text. -/
structure Returns (batch : Batch) : Prop where
  form : Form.read batch.toForm.write = .ok batch.toForm
  batch : ofForm batch.toForm = .ok batch.wholeMillis

theorem Portable.returns {batch : Batch} (portable : Portable batch) : Returns batch where
  form := Form.read_write _
  batch := by
    obtain ⟨⟨someTld, tldTrimmed, tldSmall⟩, ⟨someWriter, writerTrimmed⟩, domains, hosts,
      ⟨enqueued, enqueuedYear⟩, created, createdYear⟩ := portable
    refine (ofForm_eq_ok_iff _ _).mpr ?_
    constructor
    case someTld => exact fun empty => someTld (tldTrimmed.symm.trans empty)
    case someWriter => exact fun empty => someWriter (writerTrimmed.symm.trans empty)
    case tld => exact ((congrArg lower tldTrimmed).trans tldSmall).symm
    case writer => exact writerTrimmed.symm
    case lockIndex => rfl
    case lockCount => rfl
    case domains => exact (readNames_join domains).symm
    case hosts => exact (readNames_join hosts).symm
    case enqueuedAt =>
      show readTimestamp? (trim (timestamp .milliseconds _)) = _
      rw [trim_timestamp enqueuedYear, readTimestamp?_timestamp enqueued enqueuedYear]
      rfl
    case itemsCreatedAt =>
      show readTimestamp? (trim (timestamp .milliseconds _)) = _
      rw [trim_timestamp createdYear, readTimestamp?_timestamp created createdYear]
      rfl

theorem Made.portable {form : Form} {batch : Batch} (made : Made form batch)
    (enqueued : batch.enqueuedAt.HasPlainYear) (created : batch.itemsCreatedAt.HasPlainYear) :
    Portable batch where
  tld := by
    rw [made.tld, trim_lower, trim_trim, lower_lower, Ne, lower_eq_empty_iff]
    exact ⟨made.someTld, rfl, rfl⟩
  writer := by
    rw [made.writer, trim_trim]
    exact ⟨made.someWriter, rfl⟩
  domains := made.domains ▸ clean_readNames form.domains
  hosts := made.hosts ▸ clean_readNames form.hosts
  enqueuedAt := ⟨writable_of_readTimestamp? made.enqueuedAt, enqueued⟩
  itemsCreatedAt := ⟨writable_of_readTimestamp? made.itemsCreatedAt, created⟩

theorem Portable.split {batch : Batch} (portable : Portable batch) {now : Instant}
    (writable : now.Writable) (plain : now.HasPlainYear) :
    Portable (batch.split now).1 ∧ Portable (batch.split now).2 := by
  have part {domains hosts : List String} (someDomains : domains.Sublist batch.domains)
      (someHosts : hosts.Sublist batch.hosts) : Portable (batch.withItems domains hosts now) :=
    { portable with
      domains := portable.domains.sublist someDomains
      hosts := portable.hosts.sublist someHosts
      enqueuedAt := ⟨writable, plain⟩ }
  unfold Batch.split
  split
  · exact ⟨part (List.Sublist.refl _) (List.nil_sublist _),
      part (List.nil_sublist _) (List.Sublist.refl _)⟩
  · exact ⟨part (List.take_sublist _ _) (List.take_sublist _ _),
      part (List.drop_sublist _ _) (List.drop_sublist _ _)⟩

/-- Batches go through the queue without loss. Where a batch is made of a form and its times lie
in years of four digits, it comes back from its own form, and so does either half that it is cut
into at such a time, to the millisecond. Its names are those between the commas of the lists,
trimmed, small, not empty, without a comma and once each, in the order in which they first occur;
the halves hold them all between them in that order. -/
theorem returns_of_ofForm (form : Form) (batch : Batch) (accepted : ofForm form = .ok batch)
    (enqueued : batch.enqueuedAt.HasPlainYear) (created : batch.itemsCreatedAt.HasPlainYear) :
    Returns batch ∧ Gathered form.domains batch.domains ∧ Gathered form.hosts batch.hosts ∧
      ∀ now : Instant, now.Writable → now.HasPlainYear →
        Returns (batch.split now).1 ∧ Returns (batch.split now).2 ∧
        (batch.split now).1.domains ++ (batch.split now).2.domains = batch.domains ∧
        (batch.split now).1.hosts ++ (batch.split now).2.hosts = batch.hosts := by
  have made := (ofForm_eq_ok_iff form batch).mp accepted
  have portable := made.portable enqueued created
  refine ⟨portable.returns, made.domains ▸ gathered_readNames form.domains,
    made.hosts ▸ gathered_readNames form.hosts, fun now writable plain => ?_⟩
  have halves := portable.split writable plain
  have whole := halves_split batch now
  exact ⟨halves.1.returns, halves.2.returns, whole.domains, whole.hosts⟩

/-! ### A form with a leap second -/

/-- A form with stray blanks and capitals, a name given twice, and a leap second. -/
def exampleForm : Form where
  tld := " Test"
  dnsWriter := "PowerDnsWriter "
  lockIndex := 2
  numPublishLocks := 4
  domains := "a.test, B.test,,A.test ,\u00fc.test"
  hosts := "ns1.a.test"
  itemsCreated := "2017-01-01T01:59:60.7504+02:00"
  enqueued := " 2025-06-01T12:00:00.000123Z"

/-- The batch that is made of it. -/
def exampleBatch : Batch where
  tld := "test"
  writer := "PowerDnsWriter"
  lockIndex := 2
  lockCount := 4
  domains := ["a.test", "b.test", "\u00fc.test"]
  hosts := ["ns1.a.test"]
  enqueuedAt := ⟨1748779200, 123000⟩
  itemsCreatedAt := ⟨1483228799, 1750400000⟩

/-- That batch and the halves that it is cut into a minute later come back from their forms. -/
theorem returns_exampleBatch :
    ofForm exampleForm = .ok exampleBatch ∧ Returns exampleBatch ∧
      Gathered exampleForm.domains ["a.test", "b.test", "\u00fc.test"] ∧
      Returns (exampleBatch.split ⟨1748779260, 0⟩).1 ∧
      Returns (exampleBatch.split ⟨1748779260, 0⟩).2 := by
  have accepted : ofForm exampleForm = .ok exampleBatch := by decide +kernel
  have enqueued : exampleBatch.enqueuedAt.HasPlainYear := ⟨by decide, by decide⟩
  have created : exampleBatch.itemsCreatedAt.HasPlainYear := ⟨by decide, by decide⟩
  obtain ⟨whole, domains, _, halves⟩ :=
    returns_of_ofForm exampleForm exampleBatch accepted enqueued created
  obtain ⟨first, second, _⟩ := halves ⟨1748779260, 0⟩
    ⟨by decide, fun leap => absurd leap (by decide)⟩ ⟨by decide, by decide⟩
  exact ⟨accepted, whole, domains, first, second⟩

end Batch

end Zonecast.Publish
