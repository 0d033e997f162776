import ServingPlatform.TokenEngine.EventStreams

namespace ServingPlatform

variable {S : Type}

/-- The first token of a sequence has index 0, and a decode step answers with the index asked for. -/
structure InferenceBackend.IndexesTokens (backend : InferenceBackend S) : Prop where
  prefill : ∀ {request : PrefillRequest} {before after : backend.State} {token : GeneratedToken},
    backend.perform (.prefill request) before (.ok token) after → token.index = 0
  prefillBatch : ∀ {requests : List PrefillRequest} {before after : backend.State} {outcome : BatchTokenResult},
    backend.perform (.prefillBatch requests) before (.ok outcome) after → ∀ request ∈ requests, ∀ token,
      outcome.tokens.get? request.sequenceId = some token → token.index = 0
  prefillChunk : ∀ {id : String} {chunk : TokenizedPrompt} {parameters : SamplingParameters} {final : Bool}
    {before after : backend.State} {token : GeneratedToken},
    backend.perform (.prefillChunk id chunk parameters final) before (.ok (some token)) after → token.index = 0
  restorePrefix : ∀ {id : String} {snapshot : S} {parameters : SamplingParameters} {before after : backend.State}
    {token : GeneratedToken}, backend.perform (.restorePrefix id snapshot parameters) before (.ok token) after →
      token.index = 0
  resumePrefix : ∀ {id : String} {snapshot : S} {suffix : TokenizedPrompt} {parameters : SamplingParameters}
    {before after : backend.State} {token : GeneratedToken},
    backend.perform (.resumePrefix id snapshot suffix parameters) before (.ok token) after → token.index = 0
  decode : ∀ {request : DecodeRequest} {before after : backend.State} {token : GeneratedToken},
    backend.perform (.decode request) before (.ok token) after → token.index = request.index
  decodeBatch : ∀ {requests : List DecodeRequest} {before after : backend.State} {outcome : BatchTokenResult},
    backend.perform (.decodeBatch requests) before (.ok outcome) after → ∀ request ∈ requests, ∀ token,
      outcome.tokens.get? request.sequenceId = some token →
        ∃ other ∈ requests, other.sequenceId = request.sequenceId ∧ token.index = other.index

variable {backend : InferenceBackend S} {setup : EngineSetup} {t t' : Shared backend} {r : Ref}

/-- Every token of a fallback's answer answers one of its requests. -/
theorem InferenceBackend.Each.answers {R : Type} {sequenceId : R → String}
    {single : R → backend.State → Except Raised GeneratedToken → backend.State → Prop} {requests : List R}
    {before after : backend.State} {tokens : Dict String GeneratedToken}
    (each : backend.Each sequenceId single requests before (.ok tokens) after) {id : String} {token : GeneratedToken}
    (found : tokens.get? id = some token) :
    ∃ request ∈ requests, sequenceId request = id ∧ ∃ b b', single request b (.ok token) b' := by
  generalize outcome : (Except.ok tokens : Except Raised (Dict String GeneratedToken)) = result at each
  induction each generalizing tokens with
  | nil =>
    cases outcome
    cases found
  | raised => cases outcome
  | @next request b b' passed earlier middle answered first last ih =>
    cases outcome
    rw [Dict.get?_insert] at found
    split at found
    · rename_i same
      cases found
      exact ⟨request, List.mem_append_right _ (List.mem_singleton_self _), same.symm, _, _, last⟩
    · obtain ⟨other, member, named, run⟩ := ih found rfl
      exact ⟨other, List.mem_append_left _ member, named, run⟩

theorem forall₂_left {α β : Type} {R : α → β → Prop} {xs : List α} {ys : List β} (all : List.Forall₂ R xs ys) {x : α}
    (member : x ∈ xs) : ∃ y ∈ ys, R x y := by
  induction all with
  | nil => cases member
  | @cons a b _ _ head tail ih =>
    rcases List.mem_cons.mp member with rfl | later
    · exact ⟨b, List.mem_cons_self .., head⟩
    · obtain ⟨y, listed, related⟩ := ih later
      exact ⟨y, List.mem_cons_of_mem _ listed, related⟩

namespace Shared

/-- The tokens that came in for the sequence are counted from 0. -/
def Indexed (t : Shared backend) (r : Ref) : Prop :=
  (t.view r).answered.map GeneratedToken.index = List.range (t.view r).answered.length

/-- The requests of a decode batch for one sequence ask for its next token. -/
theorem DecodeGuard.index {sequences : List Ref} {requests : List DecodeRequest} (guard : t.DecodeGuard sequences requests)
    (active : t.ActiveRef r) {request : DecodeRequest} (member : request ∈ requests)
    (named : request.sequenceId = t.engine.requestId r) : request.index = (t.view r).answered.length := by
  obtain ⟨r', -, active', decoding, named', index⟩ := forall₂_left guard.2.2.flip member
  have same : r' = r := by
    have found : t.engine.active.get? (t.engine.requestId r) = some r' := named ▸ named' ▸ active'
    exact Option.some.inj (found.symm.trans active)
  subst same
  rw [index, ← decoding.accepted, List.length_map]

theorem PrefillGuard.unanswered {sequences : List Ref} {requests : List PrefillRequest}
    (guard : t.PrefillGuard sequences requests) (member : r ∈ sequences) : (t.view r).answered = [] := by
  obtain ⟨request, -, -, prefilling, -⟩ := forall₂_left guard.2.2 member
  exact prefilling.answered

/-- The token an allowed call brings has the index of the sequence's next one. -/
theorem CallGuard.index (indexes : backend.IndexesTokens) {command : BackendCall S} {sequences : List Ref}
    {result : Except Raised command.Answer} {before after : backend.State} (guard : t.CallGuard command sequences)
    (run : backend.Runs command before result after) (member : r ∈ sequences) {token : GeneratedToken}
    (answer : (⟨command, sequences, result⟩ : CallRecord S).tokenFor (t.engine.requestId r) = some token) :
    token.index = (t.view r).answered.length := by
  have active := guard.active r member
  cases result with
  | error error => cases answer
  | ok value =>
    have batch : ∀ {outcome : BatchTokenResult}, outcome.tokenFor (t.engine.requestId r) = some token →
        outcome.tokens.get? (t.engine.requestId r) = some token := by
      intro outcome answer
      unfold BatchTokenResult.tokenFor at answer
      split at answer
      · exact answer
      · cases answer
    cases guard with
    | tokenize | snapshotPrefix | eosTokenIds | releaseSequence => cases answer
    | prefillBatch guard =>
      obtain ⟨request, listed, -, prefilling, named⟩ := forall₂_left guard.2.2 member
      rw [prefilling.answered]
      exact indexes.prefillBatch run request listed token (named ▸ batch answer)
    | prefillFallback guard =>
      obtain ⟨tokens, each, same⟩ := run
      cases tokens with
      | error error => cases same
      | ok tokens =>
        cases same
        have reply : BatchTokenResult.tokenFor ⟨tokens, .empty⟩ (t.engine.requestId r) = some token := answer
        obtain ⟨request, -, -, b, b', single⟩ := each.answers (batch reply)
        rw [guard.unanswered member]
        exact indexes.prefill single
    | prefillChunk _ prefilling =>
      cases List.mem_singleton.mp member
      rw [prefilling.answered]
      cases answer
      exact indexes.prefillChunk run
    | restorePrefix _ prefilling =>
      cases List.mem_singleton.mp member
      rw [prefilling.answered]
      cases answer
      exact indexes.restorePrefix run
    | resumePrefix _ prefilling =>
      cases List.mem_singleton.mp member
      rw [prefilling.answered]
      cases answer
      exact indexes.resumePrefix run
    | decodeBatch guard =>
      obtain ⟨request, listed, -, -, named, -⟩ := forall₂_left guard.2.2 member
      obtain ⟨other, among, same, index⟩ := indexes.decodeBatch run request listed token (named ▸ batch answer)
      rw [index, guard.index active among (same.trans named)]
    | decodeFallback guard =>
      obtain ⟨tokens, each, same⟩ := run
      cases tokens with
      | error error => cases same
      | ok tokens =>
        cases same
        have reply : BatchTokenResult.tokenFor ⟨tokens, .empty⟩ (t.engine.requestId r) = some token := answer
        obtain ⟨request, listed, named, b, b', single⟩ := each.answers (batch reply)
        rw [← guard.index active listed named]
        exact indexes.decode single

theorem indexed_of_unanswered (unanswered : (t.view r).answered = []) : t.Indexed r := by
  rw [Indexed, unanswered]
  rfl

/-- The tokens that have come in for a sequence whose calls are the same. -/
theorem Indexed.same (indexed : t.Indexed r) (requestId : t'.engine.requestId r = t.engine.requestId r)
    (log : t'.log = t.log) : t'.Indexed r := by
  have answered : (t'.view r).answered = (t.view r).answered := by
    show answeredTokens (t'.engine.requestId r) (t'.log.filter _) = _
    rw [requestId, log]
    rfl
  rw [Indexed, answered]
  exact indexed

theorem Indexed.recorded (indexed : t.Indexed r) (indexes : backend.IndexesTokens) {command : BackendCall S}
    {sequences : List Ref} {result : Except Raised command.Answer} {after : backend.State}
    (guard : t.CallGuard command sequences) (run : backend.Runs command t.backendState result after) :
    (t.record command sequences result after).Indexed r := by
  by_cases member : r ∈ sequences
  · have answered : ((t.record command sequences result after).view r).answered = (t.view r).answered ++
        ((⟨command, sequences, result⟩ : CallRecord S).tokenFor (t.engine.requestId r)).toList := by
      have records : (t.record command sequences result after).recordsOf r =
          ⟨command, sequences, result⟩ :: t.recordsOf r := List.filter_cons_of_pos (by simpa using member)
      show answeredTokens _ ((t.record command sequences result after).recordsOf r) = _
      rw [records]
      rfl
    rw [Indexed, answered]
    cases answer : (⟨command, sequences, result⟩ : CallRecord S).tokenFor (t.engine.requestId r) with
    | none => rw [Option.toList_none, List.append_nil]; exact indexed
    | some token =>
      have index := guard.index indexes run member answer
      rw [Option.toList_some, List.map_append, indexed, List.length_append, List.length_singleton, List.range_succ,
        List.map_singleton, index]
  · have records : (t.record command sequences result after).recordsOf r = t.recordsOf r :=
      List.filter_cons_of_neg (by simpa using member)
    have answered : ((t.record command sequences result after).view r).answered = (t.view r).answered :=
      congrArg (answeredTokens (t.engine.requestId r)) records
    rw [Indexed, answered]
    exact indexed

theorem Step.indexed (step : Step t t') (sound : t.Sound setup) (indexes : backend.IndexesTokens)
    (before : ∀ r, r < t.engine.created → t.Indexed r) (below : r < t'.engine.created) : t'.Indexed r := by
  rcases step.joined below with older | ⟨log, new, -⟩
  · have requestId := (step.stream sound older).requestId
    cases step with
    | call guard run => exact (before r older).recorded indexes guard run
    | scheduler action => exact (before r older).same requestId action.log
    | client action => exact (before r older).same requestId action.log
    | decided | stop | schedulerReturned | schedulerRaised => exact (before r older).same requestId rfl
  · have none : t'.recordsOf r = [] := by
      refine List.filter_eq_nil_iff.mpr fun c member listed => ?_
      rw [log] at member
      exact absurd (sound.mentioned c member r (of_decide_eq_true listed)) (Nat.not_lt_of_le new)
    exact indexed_of_unanswered (congrArg (answeredTokens (t'.engine.requestId r)) none)

theorem Reach.indexed (reach : Reach setup t) (indexes : backend.IndexesTokens) (below : r < t.engine.created) :
    t.Indexed r := by
  induction reach generalizing r with
  | refl => exact absurd below (Nat.not_lt_zero _)
  | tail earlier step before => exact step.indexed (Reach.sound earlier) indexes (fun _ => before) below

end Shared

namespace Configuration

/-- The events of a sequence are its tokens, counted from 0 and none of them
terminal, and then at most one terminal event, which tells what happened. -/
theorem events_wellFormed (indexes : backend.IndexesTokens) {c : Configuration backend}
    (reachable : c.Reachable backend setup) {r : Ref} (created : r < c.shared.engine.created) :
    ∃ (tokens : List GeneratedToken) (last : Option StreamEvent),
      (c.shared.engine.sequences r).events = tokens.map .token ++ last.toList ∧
      tokens.map GeneratedToken.index = List.range tokens.length ∧
      tokens.length ≤ (c.shared.engine.sequences r).state.sampling.maxNewTokens ∧
      (∀ token ∈ tokens, c.shared.Ordinary r token) ∧ ∀ event ∈ last, c.shared.Told r tokens.length event := by
  obtain ⟨decisions, safe⟩ := reachable.safe
  obtain ⟨tokens, last, streamed⟩ := safe.reach.streamed created
  have indexed := safe.reach.indexed indexes created
  refine ⟨tokens, last, streamed.events, ?_, streamed.bounded, streamed.ordinary, streamed.told⟩
  obtain ⟨later, answered⟩ := streamed.answered
  rw [Shared.Indexed, ← answered, List.map_append] at indexed
  have front := congrArg (List.take tokens.length) indexed
  rw [List.take_left' (List.length_map _), List.take_range] at front
  rw [front, List.length_append, Nat.min_eq_left (Nat.le_add_right _ _)]

namespace Sample

/-- A backend that also decodes, with the index asked for. -/
def decoding : (method : BackendMethod Unit) → Except Raised method.Answer
  | .decode request => .ok ⟨5, "five", request.index, 2⟩
  | .decodeBatch requests =>
    .ok ⟨.ofValues DecodeRequest.sequenceId (fun request => ⟨5, "five", request.index, 2⟩) requests, .empty⟩
  | method => answer method

theorem decoding_indexes : (InferenceBackend.ofAnswers decoding).IndexesTokens where
  prefill run := by cases run; rfl
  prefillBatch run _ _ _ found := by cases run; cases found
  prefillChunk run := by
    have given := Except.ok.inj run
    split at given
    · cases given; rfl
    · cases given
  restorePrefix run := by cases run; rfl
  resumePrefix run := by cases run; rfl
  decode run := by cases run; rfl
  decodeBatch run request _ token found := by
    cases run
    obtain ⟨other, among, named, rfl⟩ := Dict.get?_ofValues found
    exact ⟨other, among, named, rfl⟩

def pairSampling : SamplingParameters := .unstopped 2 Nat.two_pos

/-- One chunk and one decode step, each with its turn of the scheduler. -/
def twoTokens : List Move :=
  [.reserve "first" "short" pairSampling 10 0, .stream "first", .schedule 0, .answer, .schedule 0, .answer, .schedule 0,
    .answer, .schedule 0, .answer, .schedule 0, .schedule 0, .answer, .schedule 0, .answer, .schedule 0]

def shows (c : Configuration (.ofAnswers decoding)) : Bool :=
  (c.shared.engine.sequences 0).events.length = 3 ∧ 0 < c.shared.engine.created

theorem twoTokens_shows : ((plays decoding (initial _ oneToken) twoTokens).any shows) = true := by decide +kernel

end Sample

open Sample in
theorem events_wellFormed_sample : ∃ c : Configuration (.ofAnswers decoding), c.Reachable _ oneToken ∧
    (c.shared.engine.sequences 0).events.length = 3 ∧
    ∃ (tokens : List GeneratedToken) (last : Option StreamEvent),
      (c.shared.engine.sequences 0).events = tokens.map .token ++ last.toList ∧
        tokens.map GeneratedToken.index = List.range tokens.length := by
  obtain ⟨c, reachable, seen⟩ := script_reaches decoding twoTokens_shows
  obtain ⟨events, created⟩ := of_decide_eq_true seen
  obtain ⟨tokens, last, listed, indices, -⟩ := events_wellFormed decoding_indexes reachable created
  exact ⟨c, reachable, events, tokens, last, listed, indices⟩

end Configuration

end ServingPlatform
