import Mathlib.Data.Rat.Defs
import Mathlib.Algebra.Order.Field.Basic
import ServingPlatform.KvCache.AllocatorRuns
import ServingPlatform.Library.Hysteresis

namespace ServingPlatform.KVBlockAllocator

variable {a a' : KVBlockAllocator} {owner : String} {tokens : Int}

/-- The share of the blocks that are referenced. -/
def utilization (a : KVBlockAllocator) : Rat := a.references.size / a.dimensions.totalBlocks

/-- The flag agrees with the present utilization: to look at it again changes nothing. -/
def Settled (a : KVBlockAllocator) : Prop :=
  Hysteresis.update a.dimensions.lowWatermark a.dimensions.highWatermark a.pressure a.utilization = a.pressure

/-- An operation has left the flag as hysteresis over the new utilization wants it. -/
structure Measured (a a' : KVBlockAllocator) : Prop where
  dimensions : a'.dimensions = a.dimensions
  pressure : a'.pressure =
    Hysteresis.update a.dimensions.lowWatermark a.dimensions.highWatermark a.pressure a'.utilization

theorem updatePressure_pressure (a : KVBlockAllocator) : a.updatePressure.pressure =
    Hysteresis.update a.dimensions.lowWatermark a.dimensions.highWatermark a.pressure a.utilization := by
  unfold updatePressure Hysteresis.update utilization
  dsimp only
  split
  · rfl
  · split <;> rfl

theorem Measured.updated {before : KVBlockAllocator} (dimensions : a.dimensions = before.dimensions)
    (pressure : a.pressure = before.pressure) : Measured before a.updatePressure where
  dimensions := (updatePressure_dimensions a).trans dimensions
  pressure := by
    have same : a.updatePressure.utilization = a.utilization := by
      rw [utilization, updatePressure_references, updatePressure_dimensions, utilization]
    rw [updatePressure_pressure, same, dimensions, pressure]

theorem Settled.unchanged (settled : a.Settled) : Measured a a := ⟨rfl, settled.symm⟩

theorem Settled.same (settled : a.Settled) (same : SameTables a a') (pressure : a'.pressure = a.pressure) :
    Measured a a' where
  dimensions := same.dimensions
  pressure := by
    have level : a'.utilization = a.utilization := by
      rw [utilization, same.references, same.dimensions, utilization]
    rw [level, pressure]
    exact settled.symm

theorem Measured.settled (measured : Measured a a') : a'.Settled := by
  have order := a.dimensions.watermarks.2.1
  rw [Settled, measured.pressure, measured.dimensions]
  exact Hysteresis.update_twice order

theorem allocate_measured (settled : a.Settled) : Measured a (a.allocate owner tokens).2 := by
  unfold allocate
  split
  · exact settled.unchanged
  split
  · exact settled.unchanged
  split
  · exact settled.unchanged
  split
  · exact .updated rfl rfl
  · exact .updated rfl rfl

theorem retain_measured (settled : a.Settled) {blocks : List BlockId} : Measured a (a.retain owner blocks).2 := by
  have untouched : ∀ raised a', a.retain owner blocks = (.error raised, a') → a' = a := by
    intro raised a' run
    rcases a.retain_cases owner blocks with ⟨_, other⟩ | ⟨_, other, -⟩
    · cases run.symm.trans other
      rfl
    · cases run.symm.trans other
  revert untouched
  unfold retain
  split
  · exact fun _ => settled.unchanged
  split
  · exact fun _ => settled.unchanged
  split
  · exact fun _ => settled.unchanged
  split
  · exact fun _ => settled.unchanged
  split
  · intro untouched
    rw [untouched _ _ rfl]
    exact settled.unchanged
  · exact fun _ => .updated rfl rfl

theorem resize_measured (settled : a.Settled) (consistent : a.Consistent) : Measured a (a.resize owner tokens).2 := by
  have untouched : ∀ raised a', a.resize owner tokens = (.error raised, a') → SameTables a a' := by
    intro raised a' run
    rcases resize_cases consistent owner tokens with ⟨_, _, other, same⟩ | ⟨_, _, _, _, other, -⟩
    · cases run.symm.trans other
      exact same
    · cases run.symm.trans other
  revert untouched
  unfold resize
  split
  · exact fun _ => settled.unchanged
  split
  · exact fun _ => settled.unchanged
  split
  · exact fun _ => settled.unchanged
  · exact fun _ => settled.unchanged
  dsimp only
  split
  · exact fun _ => .updated rfl rfl
  split
  · exact fun _ => .updated rfl rfl
  split
  · split
    · exact fun untouched => settled.same (untouched _ _ rfl) rfl
    · exact fun _ => .updated rfl rfl
  · exact fun _ => .updated rfl rfl

theorem release_measured (settled : a.Settled) (consistent : a.Consistent) : Measured a (a.release owner).2 := by
  have returns : ∀ raised a', a.release owner ≠ (.error raised, a') := by
    intro raised a' run
    rcases release_cases consistent owner with ⟨other, -⟩ | ⟨_, _, other, -⟩
    · cases run.symm.trans other
    · cases run.symm.trans other
  revert returns
  unfold release
  split
  · exact fun _ => settled.unchanged
  dsimp only
  split
  · exact fun returns => absurd rfl (returns _ _)
  · exact fun _ => .updated rfl rfl

/-- Every call, also one that raises, leaves the flag right for the utilization it comes to. -/
theorem perform_measured (settled : a.Settled) (consistent : a.Consistent) (call : AllocatorCall) :
    Measured a (a.perform call).2 := by
  cases call with
  | allocate owner tokens => exact allocate_measured settled
  | retain owner blocks => exact retain_measured settled
  | resize owner tokens => exact resize_measured settled consistent
  | release owner => exact release_measured settled consistent

/-- The utilization after each call of a run. -/
def utilizations (a : KVBlockAllocator) : List AllocatorCall → List Rat
  | [] => []
  | call :: rest => (a.perform call).2.utilization :: (a.perform call).2.utilizations rest

theorem utilizations_last (calls : List AllocatorCall) (call : AllocatorCall) :
    a.utilizations (calls ++ [call]) = a.utilizations calls ++ [(a.performAll (calls ++ [call])).utilization] := by
  induction calls generalizing a with
  | nil => rfl
  | cons first rest ih =>
    have later := @ih (a.perform first).2
    rw [List.cons_append, utilizations, later]
    rfl

theorem performAll_pressure (settled : a.Settled) (consistent : a.Consistent) (calls : List AllocatorCall) :
    (a.performAll calls).pressure = (a.utilizations calls).foldl
      (Hysteresis.update a.dimensions.lowWatermark a.dimensions.highWatermark) a.pressure := by
  induction calls generalizing a with
  | nil => rfl
  | cons call rest ih =>
    have measured := perform_measured settled consistent call
    have later := ih measured.settled (perform_consistent consistent call)
    rw [measured.dimensions, measured.pressure] at later
    exact later

theorem ofDimensions_utilization (dimensions : KvDimensions) : (ofDimensions dimensions).utilization = 0 := by
  have unused : (ofDimensions dimensions).references.size = 0 := rfl
  rw [utilization, unused, Nat.cast_zero, zero_div]

theorem ofDimensions_settled (dimensions : KvDimensions) : (ofDimensions dimensions).Settled := by
  obtain ⟨positive, order, -⟩ := dimensions.watermarks
  have below : ¬dimensions.highWatermark ≤ 0 := not_le_of_gt (lt_trans positive order)
  rw [Settled, ofDimensions_utilization]
  simp [Hysteresis.update, ofDimensions, below]

/-- The pressure flag is up when at some call so far the utilization came to the
high watermark and at every call since then it has stayed above the low one. So it
is above the low watermark while the flag is up, and below the high one while it is down. -/
theorem pressure_hysteresis (dimensions : KvDimensions) (calls : List AllocatorCall) :
    (((ofDimensions dimensions).performAll calls).pressure = true ↔
      ∃ before level after, (ofDimensions dimensions).utilizations calls = before ++ level :: after ∧
        dimensions.highWatermark ≤ level ∧ ∀ later ∈ after, dimensions.lowWatermark < later) ∧
    (((ofDimensions dimensions).performAll calls).pressure = true →
      dimensions.lowWatermark < ((ofDimensions dimensions).performAll calls).utilization) ∧
    (((ofDimensions dimensions).performAll calls).pressure = false →
      ((ofDimensions dimensions).performAll calls).utilization < dimensions.highWatermark) := by
  have order := dimensions.watermarks.2.1
  have flag : ∀ calls, ((ofDimensions dimensions).performAll calls).pressure = true ↔
      Hysteresis.RaisedSince dimensions.lowWatermark dimensions.highWatermark ((ofDimensions dimensions).utilizations calls) := by
    intro calls
    rw [performAll_pressure (ofDimensions_settled dimensions) (ofDimensions_consistent dimensions) calls]
    exact Hysteresis.foldl_update_iff order _
  refine ⟨flag calls, ?_⟩
  rcases List.eq_nil_or_concat calls with rfl | ⟨before, last, rfl⟩
  · refine ⟨fun raised => (by cases raised), fun _ => ?_⟩
    have unused : ((ofDimensions dimensions).performAll []).utilization = 0 := ofDimensions_utilization dimensions
    rw [unused]
    exact lt_trans dimensions.watermarks.1 order
  · rw [List.concat_eq_append]
    have now := flag (before ++ [last])
    rw [utilizations_last, Hysteresis.raisedSince_concat] at now
    constructor
    · intro raised
      rcases now.mp raised with reached | ⟨-, above⟩
      · exact lt_of_lt_of_le order reached
      · exact above
    · intro down
      refine lt_of_not_ge fun reached => ?_
      rw [now.mpr (Or.inl reached)] at down
      cases down

end ServingPlatform.KVBlockAllocator
