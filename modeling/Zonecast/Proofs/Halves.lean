/-
The two batches that a batch is cut into. They belong to its shard, hold its names between them in
order, and each holds some, so neither is as large as the batch.
-/
import Zonecast.Publish.Batch

namespace Zonecast.Publish

/-- Two batches for the same shard that hold a batch's names between them, in order. -/
structure Halves (batch first second : Batch) : Prop where
  tld : first.tld = batch.tld ∧ second.tld = batch.tld
  writer : first.writer = batch.writer ∧ second.writer = batch.writer
  lockIndex : first.lockIndex = batch.lockIndex ∧ second.lockIndex = batch.lockIndex
  lockCount : first.lockCount = batch.lockCount ∧ second.lockCount = batch.lockCount
  domains : first.domains ++ second.domains = batch.domains
  hosts : first.hosts ++ second.hosts = batch.hosts

theorem halves_split (batch : Batch) (now : Instant) :
    Halves batch (batch.split now).1 (batch.split now).2 := by
  unfold Batch.split
  split
  · exact ⟨⟨rfl, rfl⟩, ⟨rfl, rfl⟩, ⟨rfl, rfl⟩, ⟨rfl, rfl⟩, List.append_nil _, List.nil_append _⟩
  · exact ⟨⟨rfl, rfl⟩, ⟨rfl, rfl⟩, ⟨rfl, rfl⟩, ⟨rfl, rfl⟩, List.take_append_drop _ _,
      List.take_append_drop _ _⟩

/-- Both halves of a batch of several names hold some of them. One domain with one host is where
halving each list on its own would leave the first half empty. -/
theorem itemCount_split (batch : Batch) (now : Instant) (several : batch.canSplit = true) :
    1 ≤ (batch.split now).1.itemCount ∧ 1 ≤ (batch.split now).2.itemCount ∧
      (batch.split now).1.itemCount + (batch.split now).2.itemCount = batch.itemCount := by
  have items : 1 < batch.itemCount := of_decide_eq_true several
  unfold Batch.itemCount at items ⊢
  unfold Batch.split
  split
  · rename_i pair
    show 1 ≤ batch.domains.length + 0 ∧ 1 ≤ 0 + batch.hosts.length ∧
      batch.domains.length + 0 + (0 + batch.hosts.length) = _
    omega
  · rename_i other
    dsimp only [Batch.withItems]
    rw [List.length_take, List.length_take, List.length_drop, List.length_drop]
    omega

end Zonecast.Publish
