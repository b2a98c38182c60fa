/-
Batches: the domains and hosts of one TLD that are published together under one shard lock. A
batch that keeps failing is cut in two. Domains and hosts are halved each on their own, the
smaller halves go first, and one domain with one host becomes a batch of each, so that both
halves of a batch of two or more items hold at least one and fewer than all.
-/
import Zonecast.Time.Instant

namespace Zonecast.Publish

/-! ### Shards -/

/-- A shard of a TLD's publishing: a place in `1 … count`. -/
structure Shard where
  index : Nat
  count : Nat
  one_le_index : 1 ≤ index
  index_le_count : index ≤ count
  count_lt : count < UInt32.size
  deriving DecidableEq, Repr

/-- A place that is not within its count. -/
structure ShardError where
  index : Int64
  count : Int64
  deriving DecidableEq, Repr

/-- The wording of the failure. -/
def ShardError.message (error : ShardError) : String :=
  "lock index " ++ toString error.index.toInt ++ " is not within [1, " ++
    toString error.count.toInt ++ "]"

/-- The shard of this place and count, if the place is within the count. -/
def Shard.resolve (index count : Int64) : Except ShardError Shard :=
  if within : 1 ≤ index.toInt ∧ index.toInt ≤ count.toInt ∧ count.toInt < UInt32.size then
    .ok ⟨index.toInt.toNat, count.toInt.toNat, by omega, by omega, by omega⟩
  else .error ⟨index, count⟩

/-- The name of a shard's lock. -/
def Shard.lockName (shard : Shard) : String :=
  "DNS updates-lock " ++ toString shard.index ++ " of " ++ toString shard.count

/-! ### Batches -/

/-- The names of one TLD to publish together. -/
structure Batch where
  tld : String
  writer : String
  lockIndex : Int64
  lockCount : Int64
  domains : List String
  hosts : List String
  /-- When the batch was last put into the queue. -/
  enqueuedAt : Instant
  /-- When the oldest request behind these names was made. -/
  itemsCreatedAt : Instant
  deriving DecidableEq, Repr

namespace Batch

/-- The number of names. -/
def itemCount (batch : Batch) : Nat :=
  batch.domains.length + batch.hosts.length

/-- A batch of more than one item can be cut in two. -/
def canSplit (batch : Batch) : Bool :=
  1 < batch.itemCount

/-- The same shard with other names, put into the queue now. -/
def withItems (batch : Batch) (domains hosts : List String) (now : Instant) : Batch :=
  { batch with domains := domains, hosts := hosts, enqueuedAt := now }

/-- Cuts a batch in two. -/
def split (batch : Batch) (now : Instant) : Batch × Batch :=
  if batch.domains.length = 1 ∧ batch.hosts.length = 1 then
    (batch.withItems batch.domains [] now, batch.withItems [] batch.hosts now)
  else
    let domainHalf := batch.domains.length / 2
    let hostHalf := batch.hosts.length / 2
    (batch.withItems (batch.domains.take domainHalf) (batch.hosts.take hostHalf) now,
      batch.withItems (batch.domains.drop domainHalf) (batch.hosts.drop hostHalf) now)

end Batch

end Zonecast.Publish
