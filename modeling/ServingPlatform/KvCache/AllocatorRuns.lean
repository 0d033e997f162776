import ServingPlatform.KvCache.AllocatorInvariant

namespace ServingPlatform

/-- The mutating calls, with arbitrary arguments. -/
inductive AllocatorCall
  | allocate (owner : String) (tokenCapacity : Int)
  | retain (owner : String) (blocks : List BlockId)
  | resize (owner : String) (tokenCapacity : Int)
  | release (owner : String)

inductive AllocatorAnswer
  | table (blocks : List BlockId)
  | none
  | flag (released : Bool)
  deriving DecidableEq

namespace KVBlockAllocator

def perform (a : KVBlockAllocator) : AllocatorCall → Except Raised AllocatorAnswer × KVBlockAllocator
  | .allocate owner tokens => ((a.allocate owner tokens).1.map .table, (a.allocate owner tokens).2)
  | .retain owner blocks => ((a.retain owner blocks).1.map fun _ => .none, (a.retain owner blocks).2)
  | .resize owner tokens => ((a.resize owner tokens).1.map .table, (a.resize owner tokens).2)
  | .release owner => ((a.release owner).1.map .flag, (a.release owner).2)

/-- The state after a sequence of calls, whether they return or raise. -/
def performAll (a : KVBlockAllocator) (calls : List AllocatorCall) : KVBlockAllocator :=
  calls.foldl (fun a call => (a.perform call).2) a

theorem blocksForTokens_ok {a : KVBlockAllocator} {tokens : Int} {n : Nat}
    (run : a.blocksForTokens tokens = .ok n) :
    0 ≤ tokens ∧ (n = tokens.toNat ⌈/⌉ a.dimensions.blockSizeTokens ↔
      Binary64.CeilExact tokens.toNat a.dimensions.blockSizeTokens) := by
  unfold blocksForTokens at run
  split at run
  · cases run
  · rename_i nonnegative
    split at run
    · cases run
    · rename_i quotient value
      cases run
      exact ⟨by omega, Binary64.ceil_quotient_eq_iff a.dimensions.blockSizePositive value⟩

variable {a : KVBlockAllocator}

theorem allocate_consistent (before : a.Consistent) (owner : String) (tokens : Int) :
    (a.allocate owner tokens).2.Consistent := by
  rcases a.allocate_cases owner tokens with ⟨raised, a', run, same⟩ | ⟨n, a', run, -, -, fresh, grown⟩
  · rw [run]
    exact same.consistent before
  · rw [run]
    exact grown.consistent (Or.inr ⟨fresh, rfl⟩) before

theorem retain_consistent (before : a.Consistent) (owner : String) (blocks : List BlockId) :
    (a.retain owner blocks).2.Consistent := by
  rcases a.retain_cases owner blocks with ⟨raised, run⟩ | ⟨a', run, shared⟩
  · rw [run]
    exact before
  · rw [run]
    exact shared.consistent before

theorem resize_consistent (before : a.Consistent) (owner : String) (tokens : Int) :
    (a.resize owner tokens).2.Consistent := by
  rcases resize_cases before owner tokens with
    ⟨raised, a', run, same⟩ | ⟨n, old, table, a', run, -, atOwner, -, -, effect⟩
  · rw [run]
    exact same.consistent before
  · rw [run]
    rcases effect with ⟨-, grown⟩ | ⟨-, shrunk⟩ | ⟨-, same⟩
    · exact grown.consistent (Or.inl atOwner) before
    · exact shrunk.consistent before
    · exact same.consistent before

theorem release_consistent (before : a.Consistent) (owner : String) : (a.release owner).2.Consistent := by
  rcases release_cases before owner with ⟨run, -⟩ | ⟨table, a', run, released⟩
  · rw [run]
    exact before
  · rw [run]
    exact released.consistent before

theorem perform_consistent (before : a.Consistent) (call : AllocatorCall) : (a.perform call).2.Consistent := by
  cases call with
  | allocate owner tokens => exact allocate_consistent before owner tokens
  | retain owner blocks => exact retain_consistent before owner blocks
  | resize owner tokens => exact resize_consistent before owner tokens
  | release owner => exact release_consistent before owner

theorem performAll_consistent (before : a.Consistent) (calls : List AllocatorCall) :
    (a.performAll calls).Consistent := by
  induction calls generalizing a with
  | nil => exact before
  | cons call rest ih => exact ih (perform_consistent before call)

/-- A raising call leaves the free list, the tables and the counts alone. -/
theorem perform_error_sameTables (before : a.Consistent) {call : AllocatorCall} {raised : Raised}
    (failed : (a.perform call).1 = .error raised) : SameTables a (a.perform call).2 := by
  cases call with
  | allocate owner tokens =>
    rcases a.allocate_cases owner tokens with ⟨cause, a', run, same⟩ | ⟨n, a', run, -⟩
    · simpa only [perform, run] using same
    · simp [perform, run, Except.map] at failed
  | retain owner blocks =>
    rcases a.retain_cases owner blocks with ⟨cause, run⟩ | ⟨a', run, -⟩
    · simpa only [perform, run] using SameTables.rfl
    · simp [perform, run, Except.map] at failed
  | resize owner tokens =>
    rcases resize_cases before owner tokens with ⟨cause, a', run, same⟩ | ⟨n, old, table, a', run, -⟩
    · simpa only [perform, run] using same
    · simp [perform, run, Except.map] at failed
  | release owner =>
    rcases release_cases before owner with ⟨run, -⟩ | ⟨table, a', run, -⟩ <;>
      simp [perform, run, Except.map] at failed

/-- The call asks for a table of the given token capacity. -/
def AllocatorCall.Asks : AllocatorCall → String → Int → Prop
  | .allocate owner tokens, o, t => owner = o ∧ tokens = t
  | .resize owner tokens, o, t => owner = o ∧ tokens = t
  | _, _, _ => False

/-- A table handed out is the owner's table; it has the exact number of
blocks precisely when the quotient survives its rounding to a double. -/
theorem perform_table_size (before : a.Consistent) {call : AllocatorCall} {owner : String} {tokens : Int}
    {table : List BlockId} (asks : AllocatorCall.Asks call owner tokens)
    (done : (a.perform call).1 = .ok (.table table)) :
    (a.perform call).2.owners.get? owner = some table ∧
      (table.length = tokens.toNat ⌈/⌉ a.dimensions.blockSizeTokens ↔
        Binary64.CeilExact tokens.toNat a.dimensions.blockSizeTokens) := by
  cases call with
  | allocate o t =>
    obtain ⟨rfl, rfl⟩ := asks
    rcases a.allocate_cases o t with ⟨cause, a', run, -⟩ | ⟨n, a', run, needed, -, -, grown⟩
    · simp [perform, run, Except.map] at done
    · simp only [perform, run, Except.map, Except.ok.injEq, AllocatorAnswer.table.injEq] at done ⊢
      rw [← done, grown.owners, Dict.get?_insert_self, List.nil_append, List.length_take,
        Nat.min_eq_left grown.room]
      exact ⟨rfl, (blocksForTokens_ok needed).2⟩
  | resize o t =>
    obtain ⟨rfl, rfl⟩ := asks
    rcases resize_cases before o t with
      ⟨cause, a', run, -⟩ | ⟨n, old, given, a', run, needed, atOwner, length, -, effect⟩
    · simp [perform, run, Except.map] at done
    · simp only [perform, run, Except.map, Except.ok.injEq, AllocatorAnswer.table.injEq] at done ⊢
      rw [← done, length]
      refine ⟨?_, (blocksForTokens_ok needed).2⟩
      rcases effect with ⟨value, grown⟩ | ⟨value, shrunk⟩ | ⟨value, same⟩
      · rw [grown.owners, Dict.get?_insert_self, value]
      · rw [shrunk.owners, Dict.get?_insert_self, value]
      · rw [same.owners, atOwner, value]
  | retain o blocks => exact asks.elim
  | release o => exact asks.elim

theorem perform_dimensions (before : a.Consistent) (call : AllocatorCall) :
    (a.perform call).2.dimensions = a.dimensions := by
  cases call with
  | allocate owner tokens =>
    rcases a.allocate_cases owner tokens with ⟨raised, a', run, same⟩ | ⟨n, a', run, -, -, -, grown⟩
    · simpa only [perform, run] using same.dimensions
    · simpa only [perform, run] using grown.dimensions
  | retain owner blocks =>
    rcases a.retain_cases owner blocks with ⟨raised, run⟩ | ⟨a', run, shared⟩
    · simp only [perform, run]
    · simpa only [perform, run] using shared.dimensions
  | resize owner tokens =>
    rcases resize_cases before owner tokens with
      ⟨raised, a', run, same⟩ | ⟨n, old, table, a', run, -, -, -, -, ⟨-, grown⟩ | ⟨-, shrunk⟩ | ⟨-, same⟩⟩
    · simpa only [perform, run] using same.dimensions
    · simpa only [perform, run] using grown.dimensions
    · simpa only [perform, run] using shrunk.dimensions
    · simpa only [perform, run] using same.dimensions
  | release owner =>
    rcases release_cases before owner with ⟨run, -⟩ | ⟨table, a', run, released⟩
    · simp only [perform, run]
    · simpa only [perform, run] using released.dimensions

theorem performAll_dimensions (before : a.Consistent) (calls : List AllocatorCall) :
    (a.performAll calls).dimensions = a.dimensions := by
  induction calls generalizing a with
  | nil => rfl
  | cons call rest ih => exact (ih (perform_consistent before call)).trans (perform_dimensions before call)

/-- Over every run the representation invariant holds, raising calls change
nothing, and a table has its exact size precisely for the capacities whose
quotient by the block size survives rounding. -/
theorem runs_keep_tables (dimensions : KvDimensions) (calls : List AllocatorCall) (a : KVBlockAllocator)
    (reached : a = (ofDimensions dimensions).performAll calls) :
    a.Consistent ∧ ∀ call,
      (∀ raised, (a.perform call).1 = .error raised → SameTables a (a.perform call).2) ∧
        ∀ owner tokens table, AllocatorCall.Asks call owner tokens →
          (a.perform call).1 = .ok (.table table) →
          (a.perform call).2.owners.get? owner = some table ∧
            (table.length = tokens.toNat ⌈/⌉ dimensions.blockSizeTokens ↔
              Binary64.CeilExact tokens.toNat dimensions.blockSizeTokens) := by
  have fresh := ofDimensions_consistent dimensions
  have consistent : a.Consistent := reached ▸ performAll_consistent fresh calls
  have same : a.dimensions = dimensions := reached ▸ performAll_dimensions fresh calls
  refine ⟨consistent, fun call => ⟨fun raised failed => perform_error_sameTables consistent failed, ?_⟩⟩
  intro owner tokens table asks done
  rw [← same]
  exact perform_table_size consistent asks done

def oneHugeBlock : KvDimensions :=
  ⟨1, 2 ^ 53, 1, 9 / 10, 7 / 10, by decide, by decide, by decide, defaultWatermarks⟩

theorem runs_keep_tables_oneHugeBlock :
    ((ofDimensions oneHugeBlock).performAll [.allocate "a" 3, .release "a"]).Consistent ∧
      Binary64.CeilExact 3 (2 ^ 53) :=
  ⟨(runs_keep_tables oneHugeBlock [.allocate "a" 3, .release "a"] _ rfl).1, by decide +kernel⟩

/-- One block of `2 ^ 53` tokens is handed out for `2 ^ 53 + 1` tokens. -/
theorem allocate_rounds_down :
    ((ofDimensions oneHugeBlock).perform (.allocate "a" (2 ^ 53 + 1))).1 = .ok (.table [0]) ∧
      ([0] : List BlockId).length ≠ (2 ^ 53 + 1) ⌈/⌉ oneHugeBlock.blockSizeTokens := by
  decide +kernel

end KVBlockAllocator

end ServingPlatform
