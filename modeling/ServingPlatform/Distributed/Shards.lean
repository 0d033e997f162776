import Mathlib.Algebra.Order.Ring.Int
import ServingPlatform.Errors

namespace ServingPlatform

/-- A part of a dimension: the indices from `start` up to `stop`. -/
structure TensorShard where
  rank : Int
  worldSize : Int
  start : Int
  stop : Int
  deriving DecidableEq, Repr

namespace TensorShard

def size (shard : TensorShard) : Int := shard.stop - shard.start

def Holds (shard : TensorShard) (i : Int) : Prop := shard.start ≤ i ∧ i < shard.stop

end TensorShard

def balancedShard (totalSize rank worldSize : Int) : Except Raised TensorShard :=
  if totalSize ≤ 0 ∨ worldSize ≤ 0 ∨ ¬(0 ≤ rank ∧ rank < worldSize) then
    .error (valueError "tensor shard dimensions are invalid")
  else
    let base := totalSize / worldSize
    let remainder := totalSize % worldSize
    let start := rank * base + min rank remainder
    let size := base + if rank < remainder then 1 else 0
    .ok ⟨rank, worldSize, start, start + size⟩

/-- Between the boundaries of consecutive ranks lies each index once. -/
theorem exists_step {f : Nat → Int} {n : Nat} {i : Int} (low : f 0 ≤ i) (high : i < f n) :
    ∃ r < n, f r ≤ i ∧ i < f (r + 1) := by
  induction n with
  | zero => omega
  | succ n ih =>
    by_cases before : i < f n
    · obtain ⟨r, inside, found⟩ := ih before
      exact ⟨r, Nat.lt_succ_of_lt inside, found⟩
    · exact ⟨n, Nat.lt_succ_self n, not_lt.mp before, high⟩

theorem step_unique {f : Nat → Int} (ordered : ∀ a b, a ≤ b → f a ≤ f b) {r s : Nat} {i : Int}
    (first : f r ≤ i ∧ i < f (r + 1)) (second : f s ≤ i ∧ i < f (s + 1)) : r = s := by
  rcases Nat.lt_trichotomy r s with less | same | more
  · have above : f (r + 1) ≤ f s := ordered _ _ less
    omega
  · exact same
  · have above : f (s + 1) ≤ f r := ordered _ _ more
    omega

section Boundaries

variable (totalSize worldSize : Int)

/-- Where the shard of a rank starts and that of the rank before it ends. -/
def boundary (rank : Nat) : Int := rank * (totalSize / worldSize) + min (rank : Int) (totalSize % worldSize)

variable {totalSize worldSize} {rank : Int}

theorem boundary_succ (rank : Nat) : boundary totalSize worldSize (rank + 1) = boundary totalSize worldSize rank +
    (totalSize / worldSize + if (rank : Int) < totalSize % worldSize then 1 else 0) := by
  unfold boundary
  push_cast
  rw [add_mul, one_mul]
  split_ifs <;> omega

theorem boundary_le_of_le (total : 0 < totalSize) (world : 0 < worldSize) :
    ∀ r s, r ≤ s → boundary totalSize worldSize r ≤ boundary totalSize worldSize s := by
  intro r s later
  have base : 0 ≤ totalSize / worldSize := Int.ediv_nonneg total.le world.le
  induction later with
  | refl => exact Int.le_refl _
  | step _ ih =>
    rw [boundary_succ]
    split_ifs <;> omega

theorem boundary_world (world : 0 < worldSize) : boundary totalSize worldSize worldSize.toNat = totalSize := by
  have rest := Int.emod_lt_of_pos totalSize world
  have parts := Int.mul_ediv_add_emod totalSize worldSize
  unfold boundary
  rw [Int.toNat_of_nonneg world.le, min_eq_right rest.le]
  exact parts

/-- A rank of the group is given what lies between two boundaries. -/
theorem balancedShard_eq (total : 0 < totalSize) (first : 0 ≤ rank) (last : rank < worldSize) :
    balancedShard totalSize rank worldSize = .ok ⟨rank, worldSize, boundary totalSize worldSize rank.toNat,
      boundary totalSize worldSize (rank.toNat + 1)⟩ := by
  unfold balancedShard
  rw [if_neg (by omega), boundary_succ]
  unfold boundary
  rw [Int.toNat_of_nonneg first]

end Boundaries

/-- `balanced_shard` raises for a dimension or a rank out of range. Otherwise
the shards of the ranks follow each other without a gap, hold every index of
the dimension exactly once and differ by at most one in size, the larger ones
first. -/
theorem balanced_shards_tile (totalSize worldSize : Int) :
    (∀ rank, totalSize ≤ 0 ∨ worldSize ≤ 0 ∨ rank < 0 ∨ worldSize ≤ rank →
      balancedShard totalSize rank worldSize = .error (valueError "tensor shard dimensions are invalid")) ∧
    (0 < totalSize → 0 < worldSize → ∃ shard : Int → TensorShard,
      (∀ rank, 0 ≤ rank → rank < worldSize → balancedShard totalSize rank worldSize = .ok (shard rank)) ∧
      (shard 0).start = 0 ∧ (shard (worldSize - 1)).stop = totalSize ∧
      (∀ rank, 0 ≤ rank → (shard rank).stop = (shard (rank + 1)).start) ∧
      (∀ i, 0 ≤ i → i < totalSize → ∃! rank, (0 ≤ rank ∧ rank < worldSize) ∧ (shard rank).Holds i) ∧
      ∀ a b, 0 ≤ a → a ≤ b → (shard b).size ≤ (shard a).size ∧ (shard a).size ≤ (shard b).size + 1) := by
  refine ⟨fun rank outside => ?_, fun total world => ?_⟩
  · unfold balancedShard
    rw [if_pos (by omega)]
  refine ⟨fun rank => ⟨rank, worldSize, boundary totalSize worldSize rank.toNat,
    boundary totalSize worldSize (rank.toNat + 1)⟩, fun rank first last => balancedShard_eq total first last, ?_, ?_,
    fun rank first => ?_, fun i low high => ?_, fun a b first later => ?_⟩
  · have rest := Int.emod_nonneg totalSize world.ne'
    simp [boundary, rest]
  · have last : (worldSize - 1).toNat + 1 = worldSize.toNat := by omega
    dsimp only
    rw [last]
    exact boundary_world world
  · have next : (rank + 1).toNat = rank.toNat + 1 := by omega
    dsimp only
    rw [next]
  · have least : boundary totalSize worldSize 0 ≤ i := by
      have rest := Int.emod_nonneg totalSize world.ne'
      simpa [boundary, rest] using low
    obtain ⟨r, inside, held⟩ := exists_step least (high.trans_eq (boundary_world world).symm)
    refine ⟨r, ⟨⟨by omega, by omega⟩, held⟩, fun s found => ?_⟩
    have same := step_unique (boundary_le_of_le total world) found.2 held
    omega
  · unfold TensorShard.size
    dsimp only
    rw [boundary_succ, boundary_succ]
    split_ifs <;> omega

end ServingPlatform
