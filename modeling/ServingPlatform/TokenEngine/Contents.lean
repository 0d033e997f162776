import ServingPlatform.TokenEngine.FailureIsolation
import ServingPlatform.TokenEngine.TokenIndices

namespace ServingPlatform

/-- The tokens behind a sequence's key and value columns, and the token to be put in next. -/
structure Contents where
  cached : List TokenId
  next : TokenId
  deriving DecidableEq

/-- What a backend holds for a sequence. A call that raised may leave it damaged. -/
inductive Holding
  | absent
  | intact (contents : Contents)
  | damaged
  deriving DecidableEq

/-- The tokens that a chunk is put after. -/
def Holding.begun : Holding → Option (List TokenId)
  | .absent => some []
  | .intact contents => some contents.cached
  | .damaged => none

variable {S : Type}

namespace PrefixCache

variable {c : PrefixCache S} {key other : List TokenId} {entry : PrefixCacheEntry S}

theorem longestPrefix_get? (c : PrefixCache S) (query : List TokenId) (exactOnly : Bool) :
    (c.longestPrefix query exactOnly).2.entries.get? key = c.entries.get? key := by
  unfold longestPrefix
  split
  · rfl
  · dsimp only
    split
    · rfl
    · split
      · rfl
      · rename_i held found
        exact get?_moveToEnd found key

theorem evictOldest_get? (found : c.evictOldest.entries.get? key = some entry) : c.entries.get? key = some entry := by
  unfold evictOldest at found
  split at found
  · exact found
  · dsimp only at found
    rw [Dict.get?_erase] at found
    split at found
    · cases found
    · exact found

theorem evictWhileOver_get? {turns : Nat} (found : (evictWhileOver turns c).entries.get? key = some entry) :
    c.entries.get? key = some entry := by
  induction turns generalizing c with
  | zero => exact found
  | succ turns ih =>
    rw [evictWhileOver] at found
    split at found
    · exact evictOldest_get? (ih found)
    · exact found

/-- What is cached after a put was cached before, or is what was put. -/
theorem put_get? {state : S} (found : (c.put key state).2.entries.get? other = some entry) :
    c.entries.get? other = some entry ∨ other = key ∧ entry.backendState = state := by
  unfold put at found
  split at found
  · exact Or.inl found
  · split at found
    · exact Or.inl found
    · have stored : ((c.entries.erase key).insert key ⟨c.insertions, key, state⟩).get? other = some entry :=
        evictWhileOver_get? found
      rw [Dict.get?_insert] at stored
      split at stored
      · rename_i same
        cases stored
        exact Or.inr ⟨same, rfl⟩
      · rename_i differ
        rw [Dict.get?_erase_of_ne differ] at stored
        exact Or.inl stored

end PrefixCache

/-- The sequences a method may change in the backend. -/
def BackendMethod.touches : BackendMethod S → List String
  | .decode request => [request.sequenceId]
  | .decodeBatch requests => requests.map DecodeRequest.sequenceId
  | .releaseSequence sequenceId => [sequenceId]
  | method => method.creates

def BackendCall.touches : BackendCall S → List String
  | .direct method => method.touches
  | .prefillFallback requests => requests.map PrefillRequest.sequenceId
  | .decodeFallback requests => requests.map DecodeRequest.sequenceId

/-- What the calls of a backend do to the tokens it holds for its sequences, and
which tokens its snapshots keep. -/
structure InferenceBackend.KeepsTokens (backend : InferenceBackend S) where
  holds : backend.State → String → Holding
  kept : S → Option (List TokenId)
  unheld : ∀ {b : backend.State} {id : String}, ¬ backend.held b id → holds b id = .absent
  frame : ∀ {method : BackendMethod S} {before after : backend.State} {result : Except Raised method.Answer} {id : String},
    backend.perform method before result after → method ≠ .shutdown → id ∉ method.touches →
      holds after id = holds before id
  prefill : ∀ {request : PrefillRequest} {before after : backend.State} {token : GeneratedToken},
    backend.perform (.prefill request) before (.ok token) after →
      holds after request.sequenceId = .intact ⟨request.prompt.tokenIds, token.tokenId⟩
  prefillBatch : ∀ {requests : List PrefillRequest} {before after : backend.State} {outcome : BatchTokenResult},
    backend.perform (.prefillBatch requests) before (.ok outcome) after →
      (requests.map PrefillRequest.sequenceId).Nodup → ∀ request ∈ requests,
      outcome.failures.get? request.sequenceId = none → ∃ token, outcome.tokens.get? request.sequenceId = some token ∧
        holds after request.sequenceId = .intact ⟨request.prompt.tokenIds, token.tokenId⟩
  prefillChunk : ∀ {id : String} {chunk : TokenizedPrompt} {parameters : SamplingParameters} {final : Bool}
    {before after : backend.State} {answer : Option GeneratedToken} {earlier : List TokenId},
    backend.perform (.prefillChunk id chunk parameters final) before (.ok answer) after →
      (holds before id).begun = some earlier → ∃ next, holds after id = .intact ⟨earlier ++ chunk.tokenIds, next⟩ ∧
        ∀ token ∈ answer, final = true ∧ next = token.tokenId
  restorePrefix : ∀ {id : String} {snapshot : S} {parameters : SamplingParameters} {before after : backend.State}
    {token : GeneratedToken} {key : List TokenId},
    backend.perform (.restorePrefix id snapshot parameters) before (.ok token) after → kept snapshot = some key →
      holds after id = .intact ⟨key, token.tokenId⟩
  resumePrefix : ∀ {id : String} {snapshot : S} {suffix : TokenizedPrompt} {parameters : SamplingParameters}
    {before after : backend.State} {token : GeneratedToken} {key : List TokenId},
    backend.perform (.resumePrefix id snapshot suffix parameters) before (.ok token) after → kept snapshot = some key →
      holds after id = .intact ⟨key ++ suffix.tokenIds, token.tokenId⟩
  snapshotPrefix : ∀ {id : String} {before after : backend.State} {snapshot : S} {contents : Contents},
    backend.perform (.snapshotPrefix id) before (.ok snapshot) after → holds before id = .intact contents →
      kept snapshot = some contents.cached
  decode : ∀ {request : DecodeRequest} {before after : backend.State} {token : GeneratedToken} {contents : Contents},
    backend.perform (.decode request) before (.ok token) after → holds before request.sequenceId = .intact contents →
      holds after request.sequenceId = .intact ⟨contents.cached ++ [contents.next], token.tokenId⟩
  decodeBatch : ∀ {requests : List DecodeRequest} {before after : backend.State} {outcome : BatchTokenResult},
    backend.perform (.decodeBatch requests) before (.ok outcome) after →
      (requests.map DecodeRequest.sequenceId).Nodup →
      (∀ request ∈ requests, ∃ contents, holds before request.sequenceId = .intact contents) → ∀ request ∈ requests,
      outcome.failures.get? request.sequenceId = none → ∃ token, outcome.tokens.get? request.sequenceId = some token ∧
        ∀ contents, holds before request.sequenceId = .intact contents →
          holds after request.sequenceId = .intact ⟨contents.cached ++ [contents.next], token.tokenId⟩

section Calls

variable {backend : InferenceBackend S} (tells : backend.KeepsTokens)

namespace InferenceBackend.KeepsTokens

section Fallback

variable {R : Type} {sequenceId : R → String}
  {single : R → backend.State → Except Raised GeneratedToken → backend.State → Prop}

/-- A single request leaves the other sequences as they are. -/
def Alone (sequenceId : R → String)
    (single : R → backend.State → Except Raised GeneratedToken → backend.State → Prop) : Prop :=
  ∀ request b result b', single request b result b' → ∀ id, id ≠ sequenceId request → tells.holds b' id = tells.holds b id

variable {tells}

theorem Alone.each (alone : tells.Alone sequenceId single) {requests : List R} {before after : backend.State}
    {result : Except Raised (Dict String GeneratedToken)}
    (each : backend.Each sequenceId single requests before result after) {id : String}
    (outside : id ∉ requests.map sequenceId) : tells.holds after id = tells.holds before id := by
  induction each with
  | nil => rfl
  | @raised rest request _ _ earlier _ _ _ first last ih =>
    rw [List.map_append, List.mem_append, List.map_cons, List.mem_cons] at outside
    exact (alone _ _ _ _ last id fun same => outside (Or.inr (Or.inl same))).trans (ih fun inside => outside (Or.inl inside))
  | @next request _ _ earlier _ _ _ first last ih =>
    rw [List.map_append, List.mem_append, List.map_singleton, List.mem_singleton] at outside
    exact (alone _ _ _ _ last id fun same => outside (Or.inr same)).trans (ih fun inside => outside (Or.inl inside))

/-- Every request of a fallback that returned was answered once, and nothing
else happened to its sequence. -/
theorem Alone.each_answered (alone : tells.Alone sequenceId single) {requests : List R} {before after : backend.State} {tokens : Dict String GeneratedToken}
    (each : backend.Each sequenceId single requests before (.ok tokens) after)
    (distinct : (requests.map sequenceId).Nodup) {request : R} (member : request ∈ requests) :
    ∃ token b b', tokens.get? (sequenceId request) = some token ∧ single request b (.ok token) b' ∧
      tells.holds b (sequenceId request) = tells.holds before (sequenceId request) ∧
      tells.holds after (sequenceId request) = tells.holds b' (sequenceId request) := by
  generalize outcome : (Except.ok tokens : Except Raised (Dict String GeneratedToken)) = result at each
  induction each generalizing tokens with
  | nil => cases member
  | raised => cases outcome
  | @next other b b' earlier made middle token first last ih =>
    cases outcome
    rw [List.map_append, List.map_singleton, List.nodup_append] at distinct
    obtain ⟨distinct, -, apart⟩ := distinct
    rcases List.mem_append.mp member with before | here
    · obtain ⟨found, b₁, b₂, held, run, entered, left⟩ := ih distinct before rfl
      have differ : sequenceId request ≠ sequenceId other :=
        apart _ (List.mem_map_of_mem before) _ (List.mem_singleton_self _)
      exact ⟨found, b₁, b₂, (Dict.get?_insert_of_ne differ).trans held, run, entered, (alone _ _ _ _ last _ differ).trans left⟩
    · cases List.mem_singleton.mp here
      refine ⟨token, middle, b', Dict.get?_insert_self, last, ?_, rfl⟩
      exact alone.each first fun inside => apart _ inside _ (List.mem_singleton_self _) rfl

end Fallback

theorem alone_prefill :
    tells.Alone PrefillRequest.sequenceId fun request => backend.perform (.prefill request) := by
  intro request b result b' run id differ
  exact tells.frame run (by simp) fun inside => differ (List.mem_singleton.mp inside)

theorem alone_decode : tells.Alone DecodeRequest.sequenceId fun request => backend.perform (.decode request) := by
  intro request b result b' run id differ
  exact tells.frame run (by simp) fun inside => differ (List.mem_singleton.mp inside)

/-- A command leaves the other sequences as they are. -/
theorem frame_runs {command : BackendCall S} {before after : backend.State} {result : Except Raised command.Answer}
    (run : backend.Runs command before result after) (lives : command ≠ .direct .shutdown) {id : String}
    (outside : id ∉ command.touches) : tells.holds after id = tells.holds before id := by
  cases command with
  | direct method => exact tells.frame run (fun same => lives (congrArg BackendCall.direct same)) outside
  | prefillFallback requests =>
    obtain ⟨tokens, each, -⟩ := run
    exact tells.alone_prefill.each each outside
  | decodeFallback requests =>
    obtain ⟨tokens, each, -⟩ := run
    exact tells.alone_decode.each each outside

end InferenceBackend.KeepsTokens

end Calls

namespace RefView

variable {v : RefView S} {c : CallRecord S} {holding : Holding}

def prompt (v : RefView S) : List TokenId := v.sequence.tokenized.elim [] TokenizedPrompt.tokenIds

/-- What a backend has to hold for a sequence, by the calls that were made for it. -/
structure Held (v : RefView S) (holding : Holding) : Prop where
  untokenized : v.sequence.tokenized = none → v.answered = [] ∧ v.submitted = 0
  absent : v.answered = [] → v.submitted = 0 → holding = .absent
  begun : v.answered = [] → 0 < v.submitted → ∃ next, holding = .intact ⟨v.prompt.take v.submitted, next⟩
  whole : ∀ earlier token, v.answered = earlier ++ [token] →
    holding = .intact ⟨v.prompt ++ earlier.map GeneratedToken.tokenId, token.tokenId⟩

/-- The call told nothing about the sequence and left its tokens alone. -/
theorem Held.silent (held : v.Held holding) (token : c.tokenFor v.sequence.state.requestId = none)
    (submitted : c.submitted = 0) : (v.recorded c).Held holding := by
  have sameAnswers : (v.recorded c).answered = v.answered := by
    rw [answered_recorded, token]
    exact List.append_nil _
  have sameCount : (v.recorded c).submitted = v.submitted := by
    rw [submitted_recorded, submitted, Nat.add_zero]
  refine ⟨fun none => ?_, fun answered count => ?_, fun answered count => ?_, fun earlier last answered => ?_⟩
  · rw [sameAnswers, sameCount]
    exact held.untokenized none
  · rw [sameAnswers] at answered
    rw [sameCount] at count
    exact held.absent answered count
  · rw [sameAnswers] at answered
    rw [sameCount] at count ⊢
    exact held.begun answered count
  · rw [sameAnswers] at answered
    exact held.whole earlier last answered

/-- The call brought the sequence's next token. -/
theorem Held.answer {prompt : TokenizedPrompt} {token : GeneratedToken} (prompted : v.sequence.tokenized = some prompt)
    (answer : c.tokenFor v.sequence.state.requestId = some token)
    (holds : holding = .intact ⟨prompt.tokenIds ++ v.answered.map GeneratedToken.tokenId, token.tokenId⟩) :
    (v.recorded c).Held holding := by
  have answers : (v.recorded c).answered = v.answered ++ [token] := by
    rw [answered_recorded, answer]
    rfl
  have sometimes : (v.recorded c).answered ≠ [] := by
    rw [answers]
    exact List.concat_ne_nil _ _
  refine ⟨fun none => ?_, fun none => absurd none sometimes, fun none => absurd none sometimes, fun earlier last same => ?_⟩
  · rw [show (v.recorded c).sequence.tokenized = some prompt from prompted] at none
    cases none
  · obtain ⟨rfl, rfl⟩ := List.append_inj' (answers.symm.trans same) rfl |>.imp id List.singleton_inj.mp
    rw [holds]
    show _ = Holding.intact ⟨v.prompt ++ _, _⟩
    rw [RefView.prompt, prompted]
    rfl

/-- The call put a further chunk of the prompt in. -/
theorem Held.chunk {prompt : TokenizedPrompt} {n : Nat} {next : TokenId} (prompted : v.sequence.tokenized = some prompt)
    (unanswered : v.answered = []) (token : c.tokenFor v.sequence.state.requestId = none) (submitted : c.submitted = n)
    (some : 0 < n) (holds : holding = .intact ⟨prompt.tokenIds.take (v.submitted + n), next⟩) :
    (v.recorded c).Held holding := by
  have answers : (v.recorded c).answered = [] := by
    rw [answered_recorded, token, unanswered]
    rfl
  have count : (v.recorded c).submitted = v.submitted + n := by
    rw [submitted_recorded, submitted]
  refine ⟨fun none => ?_, fun _ none => ?_, fun _ _ => ⟨next, ?_⟩, fun earlier last same => ?_⟩
  · rw [show (v.recorded c).sequence.tokenized = _ from prompted] at none
    cases none
  · rw [count] at none
    omega
  · rw [count, holds]
    show _ = Holding.intact ⟨v.prompt.take _, _⟩
    rw [RefView.prompt, prompted]
    rfl
  · rw [answers] at same
    exact absurd same.symm (List.concat_ne_nil _ _)

theorem Decoding.answers {dimensions : KvDimensions} (decoding : v.Decoding dimensions) :
    ∃ earlier last, v.answered = earlier ++ [last] := by
  have some : v.answered ≠ [] := by
    intro none
    rcases decoding.phase with ⟨phase, -⟩ | ⟨-, generated⟩
    · cases phase.symm.trans decoding.decode
    · rw [← decoding.accepted, none] at generated
      exact generated rfl
  exact ⟨_, _, (List.dropLast_append_getLast some).symm⟩

/-- The tokens that the next chunk of the prompt is put after. -/
theorem Held.chunked (held : v.Held holding) (unanswered : v.answered = []) :
    holding.begun = some (v.prompt.take v.submitted) := by
  rcases Nat.eq_zero_or_pos v.submitted with none | some
  · rw [held.absent unanswered none, none]
    rfl
  · obtain ⟨next, holds⟩ := held.begun unanswered some
    rw [holds]
    rfl

end RefView

namespace Shared

variable {backend : InferenceBackend S} {setup : EngineSetup} {t t' : Shared backend} {r : Ref}

theorem ActiveRef.unique {r' : Ref} (active : t.ActiveRef r) (active' : t.ActiveRef r')
    (same : t.engine.requestId r = t.engine.requestId r') : r = r' := by
  have found : t.engine.active.get? (t.engine.requestId r) = some r' := same ▸ active'
  exact Option.some.inj (active.symm.trans found)

/-- The requests of a batch that were made for active sequences name each of them once. -/
theorem distinct_requests {R : Type} {sequenceId : R → String} {P : Ref → R → Prop} {sequences : List Ref}
    {requests : List R} (nodup : sequences.Nodup) (active : ∀ r ∈ sequences, t.ActiveRef r)
    (all : List.Forall₂ P sequences requests)
    (named : ∀ r request, P r request → sequenceId request = t.engine.requestId r) :
    (requests.map sequenceId).Nodup := by
  have ids : requests.map sequenceId = sequences.map t.engine.requestId := by
    clear nodup active
    induction all with
    | nil => rfl
    | cons head _ ih => rw [List.map_cons, List.map_cons, ih, named _ _ head]
  rw [ids]
  exact nodup.map_on fun r member r' member' => (active r member).unique (active r' member')

/-- An active sequence at work for which no exception was met. -/
structure Faultless (t : Shared backend) (r : Ref) : Prop where
  active : t.ActiveRef r
  live : (t.view r).phase.isTerminal = false
  clean : (t.view r).Clean

/-- The backend holds the tokens of every faultless sequence, and snapshots keep the prompts they were made for. -/
structure Tracked (tells : backend.KeepsTokens) (t : Shared backend) : Prop where
  held : ∀ r, t.Faultless r → (t.view r).Held (tells.holds t.backendState (t.engine.requestId r))
  cached : ∀ key entry, t.engine.prefixCache.entries.get? key = some entry → tells.kept entry.backendState = some key
  snapshots : ∀ id r snapshot, ⟨.direct (.snapshotPrefix id), [r], .ok snapshot⟩ ∈ t.log →
    ∃ prompt, (t.engine.sequences r).tokenized = some prompt ∧ tells.kept snapshot = some prompt.tokenIds

section Calls

variable {tells : backend.KeepsTokens} {command : BackendCall S} {sequences : List Ref}

theorem CallGuard.lives (guard : t.CallGuard command sequences) : command ≠ .direct .shutdown := by
  rintro rfl
  cases guard

/-- A call is made for the sequences it touches only. -/
theorem CallGuard.touches (guard : t.CallGuard command sequences) {id : String} (touched : id ∈ command.touches) :
    ∃ r ∈ sequences, t.engine.requestId r = id := by
  have batch : ∀ {R : Type} {sequenceId : R → String} {P : Ref → R → Prop} {requests : List R},
      List.Forall₂ P sequences requests → (∀ r request, P r request → sequenceId request = t.engine.requestId r) →
      id ∈ requests.map sequenceId → ∃ r ∈ sequences, t.engine.requestId r = id := by
    intro R sequenceId P requests all named member
    obtain ⟨request, listed, rfl⟩ := List.mem_map.mp member
    obtain ⟨r, inside, related⟩ := forall₂_left all.flip listed
    exact ⟨r, inside, (named r request related).symm⟩
  have single : ∀ {r : Ref}, id ∈ [t.engine.requestId r] → ∃ r' ∈ [r], t.engine.requestId r' = id :=
    fun member => ⟨_, List.mem_singleton_self _, (List.mem_singleton.mp member).symm⟩
  cases guard with
  | tokenize | snapshotPrefix | eosTokenIds => cases touched
  | prefillBatch guard | prefillFallback guard => exact batch guard.2.2 (fun _ _ related => related.2.2) touched
  | prefillChunk | restorePrefix | resumePrefix | releaseSequence => exact single touched
  | decodeBatch guard | decodeFallback guard => exact batch guard.2.2 (fun _ _ related => related.2.2.1) touched

/-- A sequence the call was not made for is held as before. -/
theorem CallGuard.others (guard : t.CallGuard command sequences) {result : Except Raised command.Answer}
    {after : backend.State} (run : backend.Runs command t.backendState result after) (active : t.ActiveRef r)
    (outside : r ∉ sequences) :
    tells.holds after (t.engine.requestId r) = tells.holds t.backendState (t.engine.requestId r) := by
  refine tells.frame_runs run guard.lives fun touched => ?_
  obtain ⟨r', member, same⟩ := guard.touches touched
  cases (guard.active r' member).unique active same
  exact outside member

theorem PrefillGuard.distinct {requests : List PrefillRequest} (guard : t.PrefillGuard sequences requests) :
    (requests.map PrefillRequest.sequenceId).Nodup := by
  refine distinct_requests guard.1 (fun r member => ?_) guard.2.2 fun r request related => related.2.2
  obtain ⟨request, -, active, -⟩ := forall₂_left guard.2.2 member
  exact active

theorem DecodeGuard.distinct {requests : List DecodeRequest} (guard : t.DecodeGuard sequences requests) :
    (requests.map DecodeRequest.sequenceId).Nodup := by
  refine distinct_requests guard.1 (fun r member => ?_) guard.2.2 fun r request related => related.2.2.1
  obtain ⟨request, -, active, -⟩ := forall₂_left guard.2.2 member
  exact active

/-- A batch that answers a prefill brings the first token of each of its sequences. -/
theorem PrefillGuard.held {requests : List PrefillRequest} {after : backend.State} {c : CallRecord S}
    {outcome : BatchTokenResult} (guard : t.PrefillGuard sequences requests) (member : r ∈ sequences)
    (reply : c.tokenFor (t.engine.requestId r) = outcome.tokenFor (t.engine.requestId r))
    (harmless : outcome.failures.get? (t.engine.requestId r) = none)
    (given : ∀ request ∈ requests, outcome.failures.get? request.sequenceId = none →
      ∃ token, outcome.tokens.get? request.sequenceId = some token ∧
        tells.holds after request.sequenceId = .intact ⟨request.prompt.tokenIds, token.tokenId⟩) :
    ((t.view r).recorded c).Held (tells.holds after (t.engine.requestId r)) := by
  obtain ⟨request, listed, -, prefilling, named⟩ := forall₂_left guard.2.2 member
  have answered := given request listed
  rw [named] at answered
  obtain ⟨token, found, holds⟩ := answered harmless
  have answer : c.tokenFor (t.engine.requestId r) = some token := by
    rw [reply, BatchTokenResult.tokenFor, if_pos harmless, found]
  refine RefView.Held.answer prefilling.tokenized answer ?_
  rw [holds, prefilling.answered, List.map_nil, List.append_nil]

theorem faultless_of_decoding {dimensions : KvDimensions} (active : t.ActiveRef r) (decoding : (t.view r).Decoding dimensions) :
    t.Faultless r := by
  refine ⟨active, ?_, decoding.clean⟩
  rw [decoding.decode]
  rfl

/-- A batch that answers a decode brings the next token of each of its sequences,
behind the one that was put in. -/
theorem DecodeGuard.held {requests : List DecodeRequest} {after : backend.State} {c : CallRecord S}
    {outcome : BatchTokenResult} (guard : t.DecodeGuard sequences requests) (tracked : t.Tracked tells)
    (member : r ∈ sequences) (reply : c.tokenFor (t.engine.requestId r) = outcome.tokenFor (t.engine.requestId r))
    (harmless : outcome.failures.get? (t.engine.requestId r) = none)
    (given : ∀ request ∈ requests, outcome.failures.get? request.sequenceId = none →
      ∃ token, outcome.tokens.get? request.sequenceId = some token ∧
        ∀ contents, tells.holds t.backendState request.sequenceId = .intact contents →
          tells.holds after request.sequenceId = .intact ⟨contents.cached ++ [contents.next], token.tokenId⟩) :
    ((t.view r).recorded c).Held (tells.holds after (t.engine.requestId r)) := by
  obtain ⟨request, listed, active, decoding, named, -⟩ := forall₂_left guard.2.2 member
  have answered := given request listed
  rw [named] at answered
  obtain ⟨token, found, moved⟩ := answered harmless
  have answer : c.tokenFor (t.engine.requestId r) = some token := by
    rw [reply, BatchTokenResult.tokenFor, if_pos harmless, found]
  obtain ⟨prompt, prompted, -⟩ := decoding.prompted
  obtain ⟨earlier, last, answers⟩ := decoding.answers
  have before := (tracked.held r (faultless_of_decoding active decoding)).whole earlier last answers
  refine RefView.Held.answer prompted answer ?_
  rw [moved _ before, answers, RefView.prompt, prompted, List.map_append, List.append_assoc]
  rfl

theorem DecodeGuard.intact {requests : List DecodeRequest} (guard : t.DecodeGuard sequences requests)
    (tracked : t.Tracked tells) {request : DecodeRequest} (listed : request ∈ requests) :
    ∃ contents, tells.holds t.backendState request.sequenceId = .intact contents := by
  obtain ⟨r, -, active, decoding, named, -⟩ := forall₂_left guard.2.2.flip listed
  obtain ⟨earlier, last, answers⟩ := decoding.answers
  rw [named]
  exact ⟨_, (tracked.held r (faultless_of_decoding active decoding)).whole earlier last answers⟩

/-- What the backend holds for a sequence after a call that was made for it. -/
theorem CallGuard.held (guard : t.CallGuard command sequences) (tracked : t.Tracked tells)
    {result : Except Raised command.Answer} {after : backend.State}
    (run : backend.Runs command t.backendState result after) (member : r ∈ sequences)
    (live : (t.view r).phase.isTerminal = false) (clean : ((t.view r).recorded ⟨command, sequences, result⟩).Clean) :
    ((t.view r).recorded ⟨command, sequences, result⟩).Held (tells.holds after (t.engine.requestId r)) := by
  have active := guard.active r member
  have held := tracked.held r ⟨active, live, fun c earlier => clean c (List.mem_cons_of_mem _ earlier)⟩
  have harmless : (⟨command, sequences, result⟩ : CallRecord S).errorFor (t.engine.requestId r) = none :=
    clean _ (List.mem_cons_self ..)
  cases result with
  | error error =>
    have release : command.isRelease = true := by
      by_contra other
      have blamed : (if command.isRelease then none else some error) = none := harmless
      rw [if_neg other] at blamed
      cases blamed
    cases guard with
    | releaseSequence _ phase =>
      cases List.mem_singleton.mp member
      cases live.symm.trans phase
    | _ => cases release
  | ok value =>
    have untouched : command.touches = [] → tells.holds after (t.engine.requestId r) =
        tells.holds t.backendState (t.engine.requestId r) := by
      intro none
      refine tells.frame_runs run guard.lives fun touched => ?_
      rw [none] at touched
      cases touched
    cases guard with
    | tokenize | snapshotPrefix | eosTokenIds =>
      rw [untouched rfl]
      exact held.silent rfl rfl
    | releaseSequence _ phase =>
      cases List.mem_singleton.mp member
      cases live.symm.trans phase
    | prefillBatch guard =>
      exact guard.held member rfl harmless fun request listed none =>
        tells.prefillBatch run guard.distinct request listed none
    | prefillFallback guard =>
      obtain ⟨tokens, each, same⟩ := run
      cases tokens with
      | error error => cases same
      | ok tokens =>
        cases same
        refine guard.held member rfl harmless fun request listed _ => ?_
        obtain ⟨token, b, b', found, single, -, left⟩ := tells.alone_prefill.each_answered each guard.distinct listed
        exact ⟨token, found, left.trans (tells.prefill single)⟩
    | @prefillChunk _ prompt chunk _ final _ prefilling _ piece last =>
      cases List.mem_singleton.mp member
      obtain ⟨next, holds, answers⟩ := tells.prefillChunk run (held.chunked prefilling.answered)
      rw [show (t.view r).prompt = prompt.tokenIds from congrArg (Option.elim · [] _) prefilling.tokenized,
        ← piece] at holds
      cases value with
      | none => exact .chunk prefilling.tokenized prefilling.answered rfl rfl (List.length_pos_iff.mpr chunk.nonempty) holds
      | some token =>
        obtain ⟨isLast, rfl⟩ := answers token rfl
        refine RefView.Held.answer prefilling.tokenized rfl ?_
        rw [holds, last.mp isLast, List.take_length, prefilling.answered, List.map_nil, List.append_nil]
    | restorePrefix _ prefilling cached =>
      cases List.mem_singleton.mp member
      have holds := tells.restorePrefix run (tracked.cached _ _ cached)
      refine RefView.Held.answer prefilling.tokenized rfl ?_
      rw [holds, prefilling.answered, List.map_nil, List.append_nil]
    | resumePrefix _ prefilling cached split =>
      cases List.mem_singleton.mp member
      have holds := tells.resumePrefix run (tracked.cached _ _ cached)
      refine RefView.Held.answer prefilling.tokenized rfl ?_
      rw [holds, prefilling.answered, List.map_nil, List.append_nil, split]
    | decodeBatch guard =>
      exact guard.held tracked member rfl harmless fun request listed none =>
        tells.decodeBatch run guard.distinct (fun _ => guard.intact tracked) request listed none
    | decodeFallback guard =>
      obtain ⟨tokens, each, same⟩ := run
      cases tokens with
      | error error => cases same
      | ok tokens =>
        cases same
        refine guard.held tracked member rfl harmless fun request listed _ => ?_
        obtain ⟨token, b, b', found, single, entered, left⟩ := tells.alone_decode.each_answered each guard.distinct listed
        refine ⟨token, found, fun contents holds => left.trans ?_⟩
        exact tells.decode single (entered.trans holds)

/-- A snapshot of a sequence with one token keeps the prompt. -/
theorem Tracked.snapshot (tracked : t.Tracked tells) {dimensions : KvDimensions} {token : GeneratedToken}
    (active : t.ActiveRef r) (pending : (t.view r).Pending dimensions token) (first : (t.view r).generated = [])
    {snapshot : S} {after : backend.State}
    (run : backend.perform (.snapshotPrefix (t.engine.requestId r)) t.backendState (.ok snapshot) after) :
    ∃ prompt, (t.engine.sequences r).tokenized = some prompt ∧ tells.kept snapshot = some prompt.tokenIds := by
  have live : (t.view r).phase.isTerminal = false := by
    rcases pending.phase with ⟨phase, -⟩ | ⟨phase, -⟩
    · rw [phase]
      rfl
    · rw [phase]
      rfl
  obtain ⟨prompt, prompted, -⟩ := pending.prompted
  obtain ⟨earlier, answers, accepted⟩ := pending.answered
  have none : earlier = [] := List.map_eq_nil_iff.mp (accepted.trans first)
  have holds := (tracked.held r ⟨active, live, pending.clean⟩).whole earlier token answers
  refine ⟨prompt, prompted, ?_⟩
  rw [tells.snapshotPrefix run holds, none, RefView.prompt, prompted, List.map_nil, List.append_nil]
  rfl

/-- A call that may be made keeps track of all sequences. -/
theorem Tracked.record (tracked : t.Tracked tells) {result : Except Raised command.Answer} {after : backend.State}
    (guard : t.CallGuard command sequences) (run : backend.Runs command t.backendState result after) :
    (t.record command sequences result after).Tracked tells where
  held r faultless := by
    have clean := faultless.clean
    rw [view_recorded] at clean ⊢
    split at clean <;> rename_i member
    · rw [if_pos member]
      exact guard.held tracked run member faultless.live clean
    · rw [if_neg member]
      show (t.view r).Held (tells.holds after (t.engine.requestId r))
      rw [guard.others run faultless.active member]
      exact tracked.held r ⟨faultless.active, faultless.live, clean⟩
  cached := tracked.cached
  snapshots id r snapshot logged := by
    rcases List.mem_cons.mp logged with new | old
    · cases new
      cases guard with
      | snapshotPrefix active pending first => exact tracked.snapshot active pending first run
    · exact tracked.snapshots id r snapshot old

end Calls

end Shared

end ServingPlatform
