import DocGraph.Proofs.Loader.Accounting
import DocGraph.Proofs.Loader.Merging
import Mathlib.Algebra.GroupWithZero.Nat

/-!
# How full buckets get

Room is looked for before a load joins, so a bucket may outgrow the batch size, but
not twice. A new bucket is opened only when the others of its key have no room, so
all buckets of a key but one hold a full batch: the number of queries that a window
makes is bounded by the ids that its loads ask for.
-/

namespace DocGraph

open Json

namespace Bucket

variable {batchSize : Nat} {bucket : Bucket} {buckets : List Bucket} {waiter : Waiter}
  {key : BatchKey} {loads : List Waiter}

theorem takes_iff : bucket.takes batchSize waiter = true ↔
    bucket.key = waiter.key ∧ bucket.batch.hasRoom batchSize = true := by
  simp [takes]

/-- A bucket as loads fill it: with their ids, at least one and less than two batches of
them. -/
structure Filled (batchSize : Nat) (bucket : Bucket) : Prop where
  merged : bucket.Merged
  occupied : 1 ≤ bucket.batch.ids.size
  bounded : bucket.batch.ids.size ≤ 2 * batchSize - 1
  requested : bucket.batch.ids.size ≤ (bucket.waiters.map (·.request.distinctIds)).sum

theorem Filled.batchSize_pos (filled : bucket.Filled batchSize) : 0 < batchSize := by
  have occupied := filled.occupied
  have bounded := filled.bounded
  omega

theorem filled_opened (fits : waiter.request.Fits batchSize) :
    (opened waiter).Filled batchSize := by
  have merged := merged_opened waiter
  obtain ⟨id, asked⟩ := List.exists_mem_of_ne_nil _ fits.asks
  have held : id ∈ (opened waiter).batch.ids :=
    (merged.ids id).mpr ⟨waiter, List.mem_singleton_self _, asked⟩
  have occupied : 1 ≤ (opened waiter).batch.ids.size := NameSet.size_pos_of_mem held
  have size : (opened waiter).batch.ids.size = waiter.request.distinctIds := rfl
  have within := fits.fits
  refine ⟨merged, occupied, by omega, ?_⟩
  simp [opened, LoadRequest.distinctIds]

theorem Filled.join (filled : bucket.Filled batchSize) (fits : waiter.request.Fits batchSize)
    (takes : bucket.takes batchSize waiter = true) : (bucket.join waiter).Filled batchSize := by
  have merged := filled.merged.join takes
  obtain ⟨id, asked⟩ := List.exists_mem_of_ne_nil _ fits.asks
  have held : id ∈ (bucket.join waiter).batch.ids :=
    (merged.ids id).mpr ⟨waiter, List.mem_append_right _ (List.mem_singleton_self _), asked⟩
  have grown : (bucket.join waiter).batch.ids.size ≤
      bucket.batch.ids.size + waiter.request.distinctIds := NameSet.size_union_le _ _
  have room : bucket.batch.ids.size < batchSize := by
    simpa [Batch.hasRoom] using (takes_iff.mp takes).2
  have within := fits.fits
  have requested := filled.requested
  refine ⟨merged, NameSet.size_pos_of_mem held, by omega, ?_⟩
  have sum : ((bucket.join waiter).waiters.map (·.request.distinctIds)).sum =
      (bucket.waiters.map (·.request.distinctIds)).sum + waiter.request.distinctIds := by
    simp [Bucket.join]
  omega

def Apart (batchSize : Nat) (left right : Bucket) : Prop :=
  left.key = right.key →
    ¬(left.batch.hasRoom batchSize = true ∧ right.batch.hasRoom batchSize = true)

/-- A load opens a bucket only when no other of its key has room. -/
theorem apart_enter (apart : buckets.Pairwise (Apart batchSize)) :
    (enter batchSize waiter buckets).Pairwise (Apart batchSize) := by
  induction buckets with
  | nil => exact List.pairwise_singleton _ _
  | cons first rest ih =>
      obtain ⟨here, behind⟩ := List.pairwise_cons.mp apart
      simp only [enter]
      split
      · next takes =>
          refine List.pairwise_cons.mpr ⟨fun other member same both => ?_, behind⟩
          exact here other member same ⟨(takes_iff.mp takes).2, both.2⟩
      · next full =>
          refine List.pairwise_cons.mpr ⟨fun other member => ?_, ih behind⟩
          have crowded : first.key = waiter.key → ¬first.batch.hasRoom batchSize = true :=
            fun same room => full (takes_iff.mpr ⟨same, room⟩)
          rcases mem_enter member with old | rfl | ⟨joined, _, takes, rfl⟩
          · exact here other old
          · exact fun same both => crowded same both.1
          · exact fun same both => crowded (same.trans (takes_iff.mp takes).1) both.1

theorem length_hasRoom_le (apart : buckets.Pairwise (Apart batchSize)) (key : BatchKey) :
    (buckets.filter fun bucket =>
      bucket.key = key ∧ bucket.batch.hasRoom batchSize).length ≤ 1 := by
  let takes (bucket : Bucket) : Bool := bucket.key = key ∧ bucket.batch.hasRoom batchSize
  have pairs := apart.filter takes
  have roomy : ∀ bucket ∈ buckets.filter takes,
      bucket.key = key ∧ bucket.batch.hasRoom batchSize = true :=
    fun bucket member => by simpa [takes] using (List.mem_filter.mp member).2
  change (buckets.filter takes).length ≤ 1
  match found : buckets.filter takes with
  | [] | [_] => simp
  | first :: second :: rest =>
      rw [found] at pairs roomy
      have one := roomy first (by simp)
      have other := roomy second (by simp)
      have apart := (List.pairwise_cons.mp pairs).1 second List.mem_cons_self
      exact absurd ⟨one.2, other.2⟩ (apart (one.1.trans other.1.symm))

theorem length_mul_le_of_full (full : ∀ bucket ∈ buckets, batchSize ≤ bucket.batch.ids.size) :
    buckets.length * batchSize ≤ (buckets.map (·.batch.ids.size)).sum := by
  induction buckets with
  | nil => simp
  | cons first rest ih =>
      have here := full first List.mem_cons_self
      have later := ih fun bucket member => full bucket (.tail _ member)
      rw [List.length_cons, List.map_cons, List.sum_cons, Nat.succ_mul]
      omega

/-- All buckets of a key but one hold a full batch. -/
theorem length_mul_le (apart : buckets.Pairwise (Apart batchSize))
    (same : ∀ bucket ∈ buckets, bucket.key = key) :
    buckets.length * batchSize ≤ (buckets.map (·.batch.ids.size)).sum + batchSize := by
  induction buckets with
  | nil => simp
  | cons first rest ih =>
      obtain ⟨here, behind⟩ := List.pairwise_cons.mp apart
      have sameRest : ∀ bucket ∈ rest, bucket.key = key :=
        fun bucket member => same bucket (.tail _ member)
      rw [List.length_cons, List.map_cons, List.sum_cons, Nat.succ_mul]
      -- Behind a bucket with room all are full; behind a full one the rest is bounded alike.
      by_cases room : first.batch.hasRoom batchSize = true
      · have full : ∀ bucket ∈ rest, batchSize ≤ bucket.batch.ids.size := by
          intro bucket member
          have both := here bucket member
            ((same first List.mem_cons_self).trans (sameRest bucket member).symm)
          have crowded : ¬bucket.batch.hasRoom batchSize = true := fun other => both ⟨room, other⟩
          simpa [Batch.hasRoom] using crowded
        have enough := length_mul_le_of_full full
        omega
      · have full : batchSize ≤ first.batch.ids.size := by
          simpa [Batch.hasRoom] using room
        have later := ih behind sameRest
        omega

/-- Buckets that hold certain loads, all of them and each once, and that were filled one
after the other. -/
structure Packed (batchSize : Nat) (buckets : List Bucket) (loads : List Waiter) : Prop where
  filled : ∀ bucket ∈ buckets, bucket.Filled batchSize
  apart : buckets.Pairwise (Apart batchSize)
  everyone : (buckets.flatMap (·.waiters)).Perm loads

theorem packed_nil (batchSize : Nat) : Packed batchSize [] [] := ⟨by simp, .nil, .refl _⟩

theorem Packed.enter (packed : Packed batchSize buckets loads)
    (fits : waiter.request.Fits batchSize) :
    Packed batchSize (enter batchSize waiter buckets) (loads ++ [waiter]) where
  filled := by
    intro bucket member
    rcases mem_enter member with old | rfl | ⟨joined, old, takes, rfl⟩
    · exact packed.filled bucket old
    · exact filled_opened fits
    · exact (packed.filled joined old).join fits takes
  apart := apart_enter packed.apart
  everyone := (enter_waiters batchSize waiter buckets).trans (packed.everyone.append_right _)

theorem Packed.ofKey (packed : Packed batchSize buckets loads) (key : BatchKey) :
    Packed batchSize (buckets.filter (·.key = key)) (loads.filter (·.key = key)) where
  filled bucket member := packed.filled bucket (List.mem_filter.mp member).1
  apart := packed.apart.filter _
  everyone := by
    refine .trans (.of_eq ?_) (packed.everyone.filter _)
    have filled := packed.filled
    clear packed
    induction buckets with
    | nil => rfl
    | cons first rest ih =>
        have keys := (filled first List.mem_cons_self).merged.key
        have later := ih fun bucket member => filled bucket (.tail _ member)
        rw [List.flatMap_cons, List.filter_append, ← later]
        by_cases same : first.key = key
        · have all : first.waiters.filter (·.key = key) = first.waiters :=
            List.filter_eq_self.mpr fun waiter member => by simp [keys waiter member, same]
          rw [all, List.filter_cons_of_pos (by simpa using same), List.flatMap_cons]
        · have none : first.waiters.filter (·.key = key) = [] :=
            List.filter_eq_nil_iff.mpr fun waiter member => by simp [keys waiter member, same]
          rw [none, List.filter_cons_of_neg (by simpa using same), List.nil_append]

theorem Packed.size_le (packed : Packed batchSize buckets loads) :
    (buckets.map (·.batch.ids.size)).sum ≤ (loads.map (·.request.distinctIds)).sum := by
  obtain ⟨filled, -, everyone⟩ := packed
  rw [← (everyone.map _).sum_nat]
  clear everyone
  induction buckets with
  | nil => exact Nat.le_refl _
  | cons first rest ih =>
      have requested := (filled first List.mem_cons_self).requested
      have later := ih fun bucket member => filled bucket (.tail _ member)
      rw [List.map_cons, List.sum_cons, List.flatMap_cons, List.map_append, List.sum_append]
      omega

theorem Packed.length_le (packed : Packed batchSize buckets loads) (key : BatchKey) :
    (buckets.filter (·.key = key)).length ≤
      1 + ((loads.filter (·.key = key)).map (·.request.distinctIds)).sum / batchSize := by
  have ofKey := packed.ofKey key
  have same : ∀ bucket ∈ buckets.filter (·.key = key), bucket.key = key := by simp
  have enough := length_mul_le ofKey.apart same
  have requested := ofKey.size_le
  generalize buckets.filter (·.key = key) = chosen at ofKey same enough requested ⊢
  cases chosen with
  | nil => simp
  | cons first rest =>
      have positive := (ofKey.filled first List.mem_cons_self).batchSize_pos
      rw [List.length_cons, Nat.add_comm, Nat.add_le_add_iff_left,
        Nat.le_div_iff_mul_le positive]
      rw [List.length_cons, Nat.succ_mul] at enough
      omega

end Bucket

end DocGraph
