import ServingPlatform.Library.Dict
import ServingPlatform.TokenTypes

namespace ServingPlatform

/-- One entry of a prefill batch. -/
structure PrefillRequest where
  sequenceId : String
  prompt : TokenizedPrompt
  parameters : SamplingParameters

/-- One entry of a decode batch, with the index of the token asked for. -/
structure DecodeRequest where
  sequenceId : String
  parameters : SamplingParameters
  index : Nat

structure BatchTokenResult where
  tokens : Dict String GeneratedToken
  failures : Dict String Raised := .empty

/-- The backend's methods; `S` is the type of its prefix snapshots. -/
inductive BackendMethod (S : Type)
  | tokenize (prompt : String)
  | prefill (request : PrefillRequest)
  | prefillBatch (requests : List PrefillRequest)
  | prefillChunk (sequenceId : String) (prompt : TokenizedPrompt) (parameters : SamplingParameters) (final : Bool)
  | restorePrefix (sequenceId : String) (snapshot : S) (parameters : SamplingParameters)
  | resumePrefix (sequenceId : String) (snapshot : S) (suffix : TokenizedPrompt) (parameters : SamplingParameters)
  | snapshotPrefix (sequenceId : String)
  | decode (request : DecodeRequest)
  | decodeBatch (requests : List DecodeRequest)
  | eosTokenIds
  | releaseSequence (sequenceId : String)
  | shutdown

abbrev BackendMethod.Answer {S : Type} : BackendMethod S → Type
  | .tokenize _ => TokenizedPrompt
  | .prefill _ => GeneratedToken
  | .prefillBatch _ => BatchTokenResult
  | .prefillChunk .. => Option GeneratedToken
  | .restorePrefix .. => GeneratedToken
  | .resumePrefix .. => GeneratedToken
  | .snapshotPrefix _ => S
  | .decode _ => GeneratedToken
  | .decodeBatch _ => BatchTokenResult
  | .eosTokenIds => List TokenId
  | .releaseSequence _ => Unit
  | .shutdown => Unit

/-- The sequences a method may bring into the backend. -/
def BackendMethod.creates {S : Type} : BackendMethod S → List String
  | .prefill request => [request.sequenceId]
  | .prefillBatch requests => requests.map PrefillRequest.sequenceId
  | .prefillChunk sequenceId .. => [sequenceId]
  | .restorePrefix sequenceId .. => [sequenceId]
  | .resumePrefix sequenceId .. => [sequenceId]
  | _ => []

/-- Any backend: what its calls may return, raise and leave behind, with the
two facts about the sequences it holds that callers depend on. -/
structure InferenceBackend (S : Type) where
  State : Type
  start : State
  held : State → String → Prop
  perform : (method : BackendMethod S) → State → Except Raised method.Answer → State → Prop
  startEmpty : ∀ id, ¬ held start id
  created : ∀ {method : BackendMethod S} {before after : State} {result : Except Raised method.Answer},
    perform method before result after → ∀ id, held after id → held before id ∨ id ∈ method.creates
  released : ∀ {id : String} {before after : State},
    perform (.releaseSequence id) before (.ok ()) after → ¬ held after id

/-- What the engine hands to its executor: a method, or one of its own loops
over single requests for a backend without the batch method. -/
inductive BackendCall (S : Type)
  | direct (method : BackendMethod S)
  | prefillFallback (requests : List PrefillRequest)
  | decodeFallback (requests : List DecodeRequest)

abbrev BackendCall.Answer {S : Type} : BackendCall S → Type
  | .direct method => method.Answer
  | .prefillFallback _ => BatchTokenResult
  | .decodeFallback _ => BatchTokenResult

def BackendCall.creates {S : Type} : BackendCall S → List String
  | .direct method => method.creates
  | .prefillFallback requests => requests.map PrefillRequest.sequenceId
  | .decodeFallback _ => []

namespace InferenceBackend

variable {S : Type} (backend : InferenceBackend S)

/-- A dict comprehension over the requests; the first exception ends it. -/
inductive Each {R : Type} (sequenceId : R → String)
    (single : R → backend.State → Except Raised GeneratedToken → backend.State → Prop) :
    List R → backend.State → Except Raised (Dict String GeneratedToken) → backend.State → Prop
  | nil {b : backend.State} : Each sequenceId single [] b (.ok .empty) b
  | raised {rest : List R} {request : R} {b b' : backend.State} {before : List R} {tokens : Dict String GeneratedToken}
      {middle : backend.State} {raised : Raised} (first : Each sequenceId single before b (.ok tokens) middle)
      (last : single request middle (.error raised) b') :
      Each sequenceId single (before ++ request :: rest) b (.error raised) b'
  | next {request : R} {b b' : backend.State} {before : List R} {tokens : Dict String GeneratedToken}
      {middle : backend.State} {token : GeneratedToken} (first : Each sequenceId single before b (.ok tokens) middle)
      (last : single request middle (.ok token) b') :
      Each sequenceId single (before ++ [request]) b (.ok (tokens.insert (sequenceId request) token)) b'

/-- One command of the executor. -/
def Runs : (call : BackendCall S) → backend.State → Except Raised call.Answer → backend.State → Prop
  | .direct method, before, result, after => backend.perform method before result after
  | .prefillFallback requests, before, result, after => ∃ tokens,
      backend.Each PrefillRequest.sequenceId (fun request => backend.perform (.prefill request)) requests before tokens
        after ∧ result = tokens.map fun tokens => ⟨tokens, .empty⟩
  | .decodeFallback requests, before, result, after => ∃ tokens,
      backend.Each DecodeRequest.sequenceId (fun request => backend.perform (.decode request)) requests before tokens
        after ∧ result = tokens.map fun tokens => ⟨tokens, .empty⟩

variable {backend}

theorem Each.created {R : Type} {sequenceId : R → String} (method : R → BackendMethod S)
    {single : R → backend.State → Except Raised GeneratedToken → backend.State → Prop}
    (held : ∀ request b result b', single request b result b' → ∀ id, backend.held b' id →
      backend.held b id ∨ id ∈ (method request).creates)
    {requests : List R} {before after : backend.State} {result : Except Raised (Dict String GeneratedToken)}
    (each : backend.Each sequenceId single requests before result after) {id : String}
    (later : backend.held after id) : backend.held before id ∨ ∃ request ∈ requests, id ∈ (method request).creates := by
  induction each with
  | nil => exact Or.inl later
  | @raised rest request _ _ passed _ _ _ _ last ih =>
    rcases held _ _ _ _ last id later with earlier | made
    · rcases ih earlier with first | ⟨other, member, made⟩
      · exact Or.inl first
      · exact Or.inr ⟨other, List.mem_append_left _ member, made⟩
    · exact Or.inr ⟨request, List.mem_append_right _ (List.mem_cons_self ..), made⟩
  | @next request _ _ passed _ _ _ _ last ih =>
    rcases held _ _ _ _ last id later with earlier | made
    · rcases ih earlier with first | ⟨other, member, made⟩
      · exact Or.inl first
      · exact Or.inr ⟨other, List.mem_append_left _ member, made⟩
    · exact Or.inr ⟨request, List.mem_append_right _ (List.mem_singleton_self _), made⟩

/-- A command only brings in sequences it was asked to create. -/
theorem Runs.created {call : BackendCall S} {before after : backend.State} {result : Except Raised call.Answer}
    (run : backend.Runs call before result after) {id : String} (later : backend.held after id) :
    backend.held before id ∨ id ∈ call.creates := by
  cases call with
  | direct method => exact backend.created run id later
  | prefillFallback requests =>
    obtain ⟨tokens, each, -⟩ := run
    rcases each.created (fun request => .prefill request)
      (fun request b result b' run id later => backend.created run id later) later with earlier | ⟨request, member, made⟩
    · exact Or.inl earlier
    · refine Or.inr (List.mem_map.mpr ⟨request, member, ?_⟩)
      simpa [BackendMethod.creates, eq_comm] using made
  | decodeFallback requests =>
    obtain ⟨tokens, each, -⟩ := run
    rcases each.created (fun request => .decode request)
      (fun request b result b' run id later => backend.created run id later) later with earlier | ⟨request, member, made⟩
    · exact Or.inl earlier
    · simp [BackendMethod.creates] at made

end InferenceBackend

end ServingPlatform
