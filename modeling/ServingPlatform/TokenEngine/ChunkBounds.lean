import ServingPlatform.TokenEngine.RunSafety
import ServingPlatform.TokenEngine.Scripts

namespace ServingPlatform

variable {S : Type} {backend : InferenceBackend S} {setup : EngineSetup}

/-- The prompt tokens a call submits to a forward pass, sequence by sequence. -/
def BackendCall.submits : BackendCall S → List (List TokenId)
  | .direct (.prefill request) => [request.prompt.tokenIds]
  | .direct (.prefillBatch requests) => requests.map fun request => request.prompt.tokenIds
  | .direct (.prefillChunk _ chunk _ _) => [chunk.tokenIds]
  | .direct (.resumePrefix _ _ suffix _) => [suffix.tokenIds]
  | .prefillFallback requests => requests.map fun request => request.prompt.tokenIds
  | _ => []

/-- No sequence has more than so many of its prompt tokens submitted. -/
def BackendCall.Within (limit : Nat) (command : BackendCall S) : Prop :=
  ∀ tokens ∈ command.submits, tokens.length ≤ limit

/-- The longest cached prefix of a prompt is at most so many tokens shorter than it. -/
def PrefixCache.Reaches (cache : PrefixCache S) (tokenIds : List TokenId) (rest : Nat) : Prop :=
  ∃ entry, LongestEntry cache.entries tokenIds (some entry) ∧ tokenIds.length ≤ entry.tokenIds.length + rest

/-- What a resume submits is what the longest cached prefix leaves of the prompt. -/
theorem PrefixCache.Coherent.reaches_iff {cache : PrefixCache S} (coherent : cache.Coherent) {tokenIds key suffix : List TokenId}
    {entry : PrefixCacheEntry S} {rest : Nat} (cached : cache.entries.get? key = some entry)
    (split : tokenIds = key ++ suffix)
    (longest : ∀ other, other <+: tokenIds → cache.entries.get? other ≠ none → other.length ≤ key.length) :
    cache.Reaches tokenIds rest ↔ suffix.length ≤ rest := by
  have own : entry.tokenIds = key := coherent.ownKey key entry cached
  have isPrefix : key <+: tokenIds := ⟨suffix, split.symm⟩
  have whole : tokenIds.length = key.length + suffix.length := by
    rw [split, List.length_append]
  constructor
  · rintro ⟨other, ⟨held, smaller, -⟩, bound⟩
    have shorter := longest other.tokenIds smaller (by rw [held]; exact Option.some_ne_none _)
    omega
  · intro bound
    refine ⟨entry, ⟨?_, ?_, ?_⟩, ?_⟩
    · rw [own]
      exact cached
    · rw [own]
      exact isPrefix
    · rw [own]
      exact longest
    · rw [own]
      omega

namespace Configuration

variable {c c' : Configuration backend}

/-- When the engine resumes a cached prefix of a prompt, what is cached of the
prompt leaves no more than one chunk. -/
def ResumeFits (setup : EngineSetup) (c : Configuration backend) : Prop :=
  ∀ id snapshot suffix parameters r k prompt,
    c.scheduler = .waiting (.call (.direct (.resumePrefix id snapshot suffix parameters)) [r]) k →
    (c.shared.engine.sequences r).tokenized = some prompt →
    c.shared.engine.prefixCache.Reaches prompt.tokenIds setup.config.prefillChunkSizeTokens

/-- A call that is made submits at most so many prompt tokens of a sequence. -/
def CallWithin (limit : Nat) (c : Configuration backend) : Prop :=
  ∀ (command : BackendCall S) sequences k, c.scheduler = .waiting (.call command sequences) k → command.Within limit

theorem Reachable.callWithin_iff (reachable : c.Reachable backend setup)
    (chunked : 0 < setup.config.prefillChunkSizeTokens) :
    c.CallWithin setup.config.prefillChunkSizeTokens ↔ c.ResumeFits setup := by
  obtain ⟨decisions, safe⟩ := reachable.safe
  have coherent := safe.ready.sound.cache
  have size : c.shared.engine.config = setup.config := safe.ready.sound.config
  constructor
  · intro within id snapshot suffix parameters r k prompt waiting tokenized
    obtain ⟨-, guard⟩ := safe.guard waiting
    have bound := within _ _ _ waiting suffix.tokenIds (List.mem_singleton_self _)
    cases guard with
    | @resumePrefix _ prompt' _ key entry _ active prefilling cached split longest =>
      have same : prompt' = prompt := Option.some.inj (prefilling.tokenized.symm.trans tokenized)
      rw [same] at split longest
      exact (coherent.reaches_iff cached split longest).mpr bound
  · intro fits command sequences k waiting tokens submitted
    obtain ⟨-, guard⟩ := safe.guard waiting
    cases guard with
    | prefillBatch guard => exact absurd (size ▸ guard.2.1) (Nat.ne_of_gt chunked)
    | prefillFallback guard => exact absurd (size ▸ guard.2.1) (Nat.ne_of_gt chunked)
    | prefillChunk active prefilling bounded =>
      rw [List.mem_singleton.mp submitted]
      exact size ▸ bounded
    | @resumePrefix r prompt suffix key entry parameters active prefilling cached split longest =>
      rw [List.mem_singleton.mp submitted]
      have reaches := fits _ _ _ _ r k prompt waiting prefilling.tokenized
      exact (coherent.reaches_iff cached split longest).mp reaches
    | tokenize | restorePrefix | snapshotPrefix | decodeBatch | decodeFallback | eosTokenIds | releaseSequence =>
      cases submitted

/-- Runs on which no resume leaves more than a chunk. -/
def FittingRun (setup : EngineSetup) : Configuration backend → Prop :=
  Relation.ReflTransGen (fun c c' => Step c c' ∧ c'.ResumeFits setup) (initial backend setup)

theorem FittingRun.reachable (run : c.FittingRun setup) : c.Reachable backend setup :=
  Relation.ReflTransGen.mono (fun _ _ step => step.1) _ _ run

theorem FittingRun.fits (run : c.FittingRun setup) : c.ResumeFits setup := by
  cases run with
  | refl =>
    intro id snapshot suffix parameters r k prompt waiting
    cases waiting
  | tail _ step => exact step.2

/-- With chunking on, a backend call submits at most a chunk of a sequence's
prompt exactly where a resumed prefix leaves at most a chunk, and so do all
calls of a run on which all do. -/
theorem prompt_pieces_bounded (chunked : 0 < setup.config.prefillChunkSizeTokens) :
    (∀ c : Configuration backend, c.Reachable backend setup →
      (c.CallWithin setup.config.prefillChunkSizeTokens ↔ c.ResumeFits setup)) ∧
    ∀ c : Configuration backend, c.FittingRun setup → c.CallWithin setup.config.prefillChunkSizeTokens ∧
      ∀ record ∈ c.shared.log, record.command.Within setup.config.prefillChunkSizeTokens := by
  refine ⟨fun c reachable => reachable.callWithin_iff chunked, fun c run => ⟨?_, ?_⟩⟩
  · exact (run.reachable.callWithin_iff chunked).mpr run.fits
  · induction run with
    | refl =>
      intro record member
      cases member
    | @tail c₁ c₂ before step ih =>
      obtain ⟨decisions, safe⟩ := (FittingRun.reachable before).safe
      obtain ⟨c', same, recorded⟩ := Recorded.Step.record (c := ⟨c₁, decisions⟩) step.1
      have explained := (recorded.safe safe).2
      rw [← same]
      intro record member
      rcases explained.log with kept | ⟨command, sequences, k, result, waiting, grown⟩
      · rw [kept] at member
        exact ih record member
      · rw [grown] at member
        rcases List.mem_cons.mp member with rfl | old
        · exact ((FittingRun.reachable before).callWithin_iff chunked).mpr (FittingRun.fits before) command sequences k waiting
        · exact ih record old

namespace Sample

def oneToken : EngineSetup where
  config := ⟨4, 2, 1, ⟨true, true, true, true, true, true⟩, Nat.succ_pos 3, Nat.two_pos⟩
  policy := .balanced
  dimensions := ⟨8, 4, 1, 9 / 10, 1 / 2, by decide, Nat.succ_pos 3, Nat.one_pos, by norm_num⟩
  maxEntries := 8
  maxTokens := 64
  limits := by decide

/-- The short prompt is prefilled, cached and done; then the long one comes. -/
def script : List Move :=
  [.reserve "first" "short" sampling 10 0, .stream "first", .schedule 0, .answer, .schedule 0, .answer, .schedule 0,
    .answer, .schedule 0, .answer, .schedule 0, .answer, .schedule 0, .reserve "second" "long" sampling 10 0,
    .schedule 0, .answer, .schedule 0]

/-- How many prompt tokens a resume that is waited for submits. -/
def resumed : TaskStatus Unit → Nat
  | .waiting (.call (.direct (.resumePrefix _ _ suffix _)) _) _ => suffix.tokenIds.length
  | _ => 0

theorem script_resumes :
    ((plays answer (initial _ oneToken) script).any fun c => resumed c.scheduler = 2) = true := by decide +kernel

end Sample

open Sample in
theorem prompt_pieces_bounded_sample :
    ∃ c : Configuration (.ofAnswers answer), c.Reachable _ oneToken ∧ resumed c.scheduler = 2 ∧
      (c.CallWithin 1 ↔ c.ResumeFits oneToken) := by
  obtain ⟨c, reachable, waits⟩ := script_reaches answer script_resumes
  exact ⟨c, reachable, of_decide_eq_true waits, (prompt_pieces_bounded (by decide)).1 c reachable⟩

open Sample in
/-- With chunks of one token, a resume submits the two tokens that the cached prefix leaves. -/
theorem resumed_suffix_unbounded : ∃ c : Configuration (.ofAnswers answer), c.Reachable _ oneToken ∧
    0 < oneToken.config.prefillChunkSizeTokens ∧ ¬ c.CallWithin oneToken.config.prefillChunkSizeTokens := by
  obtain ⟨c, reachable, waits⟩ := script_reaches answer script_resumes
  refine ⟨c, reachable, by decide, fun within => ?_⟩
  have size := of_decide_eq_true waits
  unfold resumed at size
  split at size
  · rename_i waiting
    have bound := within _ _ _ waiting _ (List.mem_singleton_self _)
    rw [size] at bound
    exact absurd bound (by decide)
  · cases size

end Configuration

end ServingPlatform
