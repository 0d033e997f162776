import Mathlib.Logic.Function.Basic
import ServingPlatform.KvCache.AllocatorRuns

namespace ServingPlatform

def AllocatorCall.owner : AllocatorCall → String
  | .allocate owner _ => owner
  | .retain owner _ => owner
  | .resize owner _ => owner
  | .release owner => owner

namespace KVBlockAllocator

variable {a a' : KVBlockAllocator} {named named' : String → List BlockId}

/-- Which blocks the retain named that made an owner's table, after one more call. -/
def noteRetained (a : KVBlockAllocator) (named : String → List BlockId) (call : AllocatorCall) : String → List BlockId :=
  match call, (a.perform call).1 with
  | .allocate owner _, .ok _ => Function.update named owner []
  | .retain owner blocks, .ok _ => Function.update named owner blocks
  | .release owner, .ok _ => Function.update named owner []
  | _, _ => named

/-- The allocator after a sequence of calls, and which blocks each owner's retain named. -/
def performTraced (a : KVBlockAllocator) (named : String → List BlockId) (calls : List AllocatorCall) :
    KVBlockAllocator × (String → List BlockId) :=
  calls.foldl (fun state call => ((state.1.perform call).2, noteRetained state.1 state.2 call)) (a, named)

theorem performTraced_fst (a : KVBlockAllocator) (named : String → List BlockId) (calls : List AllocatorCall) :
    (a.performTraced named calls).1 = a.performAll calls := by
  induction calls generalizing a named with
  | nil => rfl
  | cons call rest ih => exact ih _ _

/-- What a call does to the tables. -/
inductive TableEffect (a a' : KVBlockAllocator) : AllocatorCall → Prop
  | same {call : AllocatorCall} (same : SameTables a a') : TableEffect a a' call
  | grown {call : AllocatorCall} {old : List BlockId} {n : Nat} (grown : Grown a a' call.owner old n)
      (origin : a.owners.get? call.owner = some old ∨ a.owners.get? call.owner = none ∧ old = []) : TableEffect a a' call
  | shared {owner : String} {blocks : List BlockId} (shared : Shared a a' owner blocks) :
      TableEffect a a' (.retain owner blocks)
  | shrunk {call : AllocatorCall} {old : List BlockId} {n : Nat} (shrunk : Shrunk a a' call.owner old n) :
      TableEffect a a' call
  | released {call : AllocatorCall} {table : List BlockId} (released : Released a a' call.owner table) :
      TableEffect a a' call

theorem perform_effect (before : a.Consistent) (call : AllocatorCall) : TableEffect a (a.perform call).2 call := by
  cases call with
  | allocate owner tokens =>
    rcases a.allocate_cases owner tokens with ⟨raised, a', run, same⟩ | ⟨n, a', run, -, -, fresh, grown⟩
    · simp only [perform, run]
      exact .same same
    · simp only [perform, run]
      exact .grown grown (Or.inr ⟨fresh, rfl⟩)
  | retain owner blocks =>
    rcases a.retain_cases owner blocks with ⟨raised, run⟩ | ⟨a', run, shared⟩
    · simp only [perform, run]
      exact .same .rfl
    · simp only [perform, run]
      exact .shared shared
  | resize owner tokens =>
    rcases resize_cases before owner tokens with
      ⟨raised, a', run, same⟩ | ⟨n, old, table, a', run, -, found, -, -, effect⟩
    · simp only [perform, run]
      exact .same same
    · simp only [perform, run]
      rcases effect with ⟨-, grown⟩ | ⟨-, shrunk⟩ | ⟨-, same⟩
      · exact .grown grown (Or.inl found)
      · exact .shrunk shrunk
      · exact .same same
  | release owner =>
    rcases release_cases before owner with ⟨run, -⟩ | ⟨table, a', run, released⟩
    · simp only [perform, run]
      exact .same .rfl
    · simp only [perform, run]
      exact .released released

/-- A call changes no table but its owner's. -/
theorem TableEffect.others {call : AllocatorCall} (effect : TableEffect a a' call) {other : String}
    (differ : other ≠ call.owner) : a'.owners.get? other = a.owners.get? other := by
  cases effect with
  | same same => rw [same.owners]
  | grown grown => rw [grown.owners, Dict.get?_insert_of_ne differ]
  | shared shared =>
    rw [shared.owners]
    exact Dict.get?_insert_of_ne differ
  | shrunk shrunk => rw [shrunk.owners, Dict.get?_insert_of_ne differ]
  | released released => rw [released.owners, Dict.get?_erase_of_ne differ]

/-- Two tables share a block only if the retain that made one of them named it. -/
def Traceable (a : KVBlockAllocator) (named : String → List BlockId) : Prop :=
  ∀ first second table table' b, first ≠ second → a.owners.get? first = some table →
    a.owners.get? second = some table' → b ∈ table → b ∈ table' → b ∈ named first ∨ b ∈ named second

/-- Where a block of a table comes from: its retain, the free list, or the table before the call. -/
def Origin (a a' : KVBlockAllocator) (named named' : String → List BlockId) (owner : String) (b : BlockId) : Prop :=
  b ∈ named' owner ∨ (∀ other table, other ≠ owner → a'.owners.get? other = some table → b ∉ table) ∨
    ∃ old, a.owners.get? owner = some old ∧ b ∈ old ∧ named' owner = named owner

theorem Traceable.step (traceable : a.Traceable named)
    (origin : ∀ owner table b, a'.owners.get? owner = some table → b ∈ table → Origin a a' named named' owner b) :
    a'.Traceable named' := by
  intro first second table table' b differ atFirst atSecond inFirst inSecond
  rcases origin first table b atFirst inFirst with retained | alone | ⟨old, was, held, kept⟩
  · exact Or.inl retained
  · exact absurd inSecond (alone second table' differ.symm atSecond)
  rcases origin second table' b atSecond inSecond with retained | alone | ⟨old', was', held', kept'⟩
  · exact Or.inr retained
  · exact absurd inFirst (alone first table differ atFirst)
  rw [kept, kept']
  exact traceable first second old old' b differ was was' held held'

/-- A call's owner keeps, replaces or loses what its retain named; others keep it. -/
theorem noteRetained_of_ne {call : AllocatorCall} {other : String} (differ : other ≠ call.owner) :
    noteRetained a named call other = named other := by
  unfold noteRetained
  generalize (a.perform call).1 = answer
  cases answer with
  | error => cases call <;> rfl
  | ok =>
    cases call with
    | allocate | retain | release => exact Function.update_of_ne differ _ _
    | resize => rfl

theorem noteRetained_error {call : AllocatorCall} {raised : Raised} (failed : (a.perform call).1 = .error raised) :
    noteRetained a named call = named := by
  unfold noteRetained
  rw [failed]
  cases call <;> rfl

/-- Blocks taken from the free list are in no other table. -/
theorem Grown.alone {owner : String} {old : List BlockId} {n : Nat} (grown : Grown a a' owner old n)
    (before : a.Consistent) {b : BlockId} (taken : b ∈ a.free.take n) :
    ∀ other table, other ≠ owner → a'.owners.get? other = some table → b ∉ table := by
  intro other table differ found member
  rw [grown.owners, Dict.get?_insert_of_ne differ] at found
  exact before.table_not_free found member (List.mem_of_mem_take taken)

theorem perform_traceable (before : a.Consistent) (traceable : a.Traceable named) (call : AllocatorCall) :
    (a.perform call).2.Traceable (noteRetained a named call) := by
  refine traceable.step fun owner table b found member => ?_
  by_cases here : owner = call.owner
  swap
  · rw [(perform_effect before call).others here] at found
    exact Or.inr (Or.inr ⟨table, found, member, noteRetained_of_ne here⟩)
  subst here
  cases call with
  | allocate owner tokens =>
    rcases a.allocate_cases owner tokens with ⟨raised, a', run, same⟩ | ⟨n, a', run, -, -, fresh, grown⟩
    · have failed : (a.perform (.allocate owner tokens)).1 = .error raised := by simp only [perform, run, Except.map]
      simp only [perform, run, same.owners] at found
      exact Or.inr (Or.inr ⟨table, found, member, congrFun (noteRetained_error failed) _⟩)
    · simp only [perform, run] at found ⊢
      rw [grown.owners, show AllocatorCall.owner (.allocate owner tokens) = owner from rfl, Dict.get?_insert_self,
        List.nil_append] at found
      cases found
      exact Or.inr (Or.inl (grown.alone before member))
  | retain owner blocks =>
    rcases a.retain_cases owner blocks with ⟨raised, run⟩ | ⟨a', run, shared⟩
    · have failed : (a.perform (.retain owner blocks)).1 = .error raised := by simp only [perform, run, Except.map]
      simp only [perform, run] at found
      exact Or.inr (Or.inr ⟨table, found, member, congrFun (noteRetained_error failed) _⟩)
    · have noted : noteRetained a named (.retain owner blocks) = Function.update named owner blocks := by
        unfold noteRetained
        simp only [perform, run, Except.map]
      simp only [perform, run] at found
      rw [shared.owners, show AllocatorCall.owner (.retain owner blocks) = owner from rfl, Dict.get?_insert_self] at found
      refine Or.inl ?_
      rw [noted, show AllocatorCall.owner (.retain owner blocks) = owner from rfl, Function.update_self,
        Option.some.inj found]
      exact member
  | resize owner tokens =>
    have kept : noteRetained a named (.resize owner tokens) = named := by
      unfold noteRetained
      split <;> first | rfl | contradiction
    rcases resize_cases before owner tokens with
      ⟨raised, a', run, same⟩ | ⟨n, old, table', a', run, -, was, -, -, effect⟩
    · simp only [perform, run, same.owners] at found
      exact Or.inr (Or.inr ⟨table, found, member, congrFun kept _⟩)
    · simp only [perform, run] at found ⊢
      rcases effect with ⟨-, grown⟩ | ⟨-, shrunk⟩ | ⟨-, same⟩
      · rw [grown.owners, show AllocatorCall.owner (.resize owner tokens) = owner from rfl, Dict.get?_insert_self] at found
        cases found
        rcases List.mem_append.mp member with inOld | taken
        · exact Or.inr (Or.inr ⟨old, was, inOld, congrFun kept _⟩)
        · exact Or.inr (Or.inl (grown.alone before taken))
      · rw [shrunk.owners, show AllocatorCall.owner (.resize owner tokens) = owner from rfl, Dict.get?_insert_self] at found
        cases found
        exact Or.inr (Or.inr ⟨old, was, List.mem_of_mem_take member, congrFun kept _⟩)
      · rw [same.owners] at found
        exact Or.inr (Or.inr ⟨table, found, member, congrFun kept _⟩)
  | release owner =>
    rcases release_cases before owner with ⟨run, absent⟩ | ⟨table', a', run, released⟩
    · simp only [perform, run] at found
      cases absent.symm.trans found
    · simp only [perform, run] at found
      rw [released.owners, show AllocatorCall.owner (.release owner) = owner from rfl, Dict.get?_erase_self] at found
      cases found

theorem performTraced_traceable (before : a.Consistent) (traceable : a.Traceable named) (calls : List AllocatorCall) :
    (a.performTraced named calls).1.Traceable (a.performTraced named calls).2 := by
  induction calls generalizing a named with
  | nil => exact traceable
  | cons call rest ih => exact ih (perform_consistent before call) (perform_traceable before traceable call)

/-- A successful resize keeps the first blocks of the table. -/
theorem resize_keeps (before : a.Consistent) {owner : String} {tokens : Int} {table : List BlockId}
    (done : (a.resize owner tokens).1 = .ok table) : ∃ old, a.owners.get? owner = some old ∧
      (a.resize owner tokens).2.owners.get? owner = some table ∧
      table.take (min old.length table.length) = old.take (min old.length table.length) := by
  rcases resize_cases before owner tokens with
    ⟨raised, a', run, -⟩ | ⟨n, old, given, a', run, -, found, -, -, effect⟩
  · rw [run] at done
    cases done
  · rw [run] at done ⊢
    cases done
    refine ⟨old, found, ?_⟩
    rcases effect with ⟨rfl, grown⟩ | ⟨rfl, shrunk⟩ | ⟨rfl, same⟩
    · refine ⟨by rw [grown.owners, Dict.get?_insert_self], ?_⟩
      rw [List.length_append, Nat.min_eq_left (Nat.le_add_right _ _), List.take_left, List.take_length]
    · refine ⟨by rw [shrunk.owners, Dict.get?_insert_self], ?_⟩
      rw [List.length_take, List.take_take]
      congr 1
      omega
    · exact ⟨by rw [same.owners, found], rfl⟩

/-- Over every run: a call touches its owner's table only, what is free is in
no table, tables share only what a retain named, and a resize keeps the
common part of the table. -/
theorem runs_isolate_tables (dimensions : KvDimensions) (calls : List AllocatorCall) {a : KVBlockAllocator}
    {named : String → List BlockId} (reached : (a, named) = (ofDimensions dimensions).performTraced (fun _ => []) calls) :
    (∀ call other, other ≠ AllocatorCall.owner call → (a.perform call).2.owners.get? other = a.owners.get? other) ∧
      (∀ call b, b ∈ (a.perform call).2.free → b ∉ a.free →
        ∀ owner table, (a.perform call).2.owners.get? owner = some table → b ∉ table) ∧
      (∀ first second table table' b, first ≠ second → a.owners.get? first = some table →
        a.owners.get? second = some table' → b ∈ table → b ∈ table' → b ∈ named first ∨ b ∈ named second) ∧
      ∀ owner tokens table, (a.resize owner tokens).1 = .ok table → ∃ old, a.owners.get? owner = some old ∧
        (a.resize owner tokens).2.owners.get? owner = some table ∧
        table.take (min old.length table.length) = old.take (min old.length table.length) := by
  have fresh := ofDimensions_consistent dimensions
  have unshared : (ofDimensions dimensions).Traceable (fun _ => []) := by
    intro first second table table' b differ found
    cases found
  have consistent : a.Consistent := by
    have same : a = (ofDimensions dimensions).performAll calls := by
      rw [← performTraced_fst _ (fun _ => []), ← reached]
    rw [same]
    exact performAll_consistent fresh calls
  have traceable : a.Traceable named := by
    have all := performTraced_traceable fresh unshared calls
    rw [← reached] at all
    exact all
  refine ⟨fun call other differ => (perform_effect consistent call).others differ, ?_, traceable, ?_⟩
  · intro call b isFree _ owner table found member
    exact (perform_consistent consistent call).table_not_free found member isFree
  · exact fun owner tokens table done => resize_keeps consistent done

def threeBlocks : KvDimensions :=
  ⟨3, 1, 1, 9 / 10, 7 / 10, by decide, Nat.one_pos, Nat.one_pos, defaultWatermarks⟩

/-- A prefix of which a request retains the first block. -/
def sharing : List AllocatorCall := [.allocate "prefix" 2, .retain "request" [0]]

theorem runs_isolate_tables_sharing :
    ((ofDimensions threeBlocks).performTraced (fun _ => []) sharing).1.owners.get? "prefix" = some [0, 1] ∧
      ((ofDimensions threeBlocks).performTraced (fun _ => []) sharing).1.owners.get? "request" = some [0] ∧
      ((0 : BlockId) ∈ ((ofDimensions threeBlocks).performTraced (fun _ => []) sharing).2 "prefix" ∨
        (0 : BlockId) ∈ ((ofDimensions threeBlocks).performTraced (fun _ => []) sharing).2 "request") := by
  have first : ((ofDimensions threeBlocks).performTraced (fun _ => []) sharing).1.owners.get? "prefix" = some [0, 1] := by
    decide +kernel
  have second : ((ofDimensions threeBlocks).performTraced (fun _ => []) sharing).1.owners.get? "request" = some [0] := by
    decide +kernel
  refine ⟨first, second, ?_⟩
  exact (runs_isolate_tables threeBlocks sharing Prod.mk.eta).2.2.1 "prefix" "request" [0, 1] [0] 0 (by decide)
    first second (by decide) (by decide)

end KVBlockAllocator

end ServingPlatform
