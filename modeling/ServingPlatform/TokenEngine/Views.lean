import ServingPlatform.TokenEngine.System

namespace ServingPlatform

variable {S : Type}

/-- The answer to a batch for one of its sequences. -/
def BatchTokenResult.tokenFor (outcome : BatchTokenResult) (id : String) : Option GeneratedToken :=
  if outcome.failures.get? id = none then outcome.tokens.get? id else none

namespace BackendCall

/-- The token an answer brings for a sequence. -/
def tokenIn (id : String) : (command : BackendCall S) → command.Answer → Option GeneratedToken
  | .direct (.restorePrefix ..), token => some token
  | .direct (.resumePrefix ..), token => some token
  | .direct (.prefillChunk ..), token => token
  | .direct (.prefillBatch _), outcome => BatchTokenResult.tokenFor outcome id
  | .direct (.decodeBatch _), outcome => BatchTokenResult.tokenFor outcome id
  | .prefillFallback _, outcome => BatchTokenResult.tokenFor outcome id
  | .decodeFallback _, outcome => BatchTokenResult.tokenFor outcome id
  | _, _ => none

/-- The failure an answer reports for a sequence of its batch. -/
def failureIn (id : String) : (command : BackendCall S) → command.Answer → Option Raised
  | .direct (.prefillBatch _), outcome => outcome.failures.get? id
  | .direct (.decodeBatch _), outcome => outcome.failures.get? id
  | .prefillFallback _, outcome => outcome.failures.get? id
  | .decodeFallback _, outcome => outcome.failures.get? id
  | _, _ => none

/-- How many prompt tokens a chunk submits. -/
def chunkLength : BackendCall S → Nat
  | .direct (.prefillChunk _ chunk _ _) => chunk.tokenIds.length
  | _ => 0

def isRelease : BackendCall S → Bool
  | .direct (.releaseSequence _) => true
  | _ => false

end BackendCall

namespace CallRecord

def tokenFor (c : CallRecord S) (id : String) : Option GeneratedToken :=
  match c.result with
  | .ok answer => c.command.tokenIn id answer
  | .error _ => none

/-- The exception that ends a sequence; releases are not made to go on with one. -/
def errorFor (c : CallRecord S) (id : String) : Option Raised :=
  match c.result with
  | .ok answer => c.command.failureIn id answer
  | .error error => if c.command.isRelease then none else some error

def submitted (c : CallRecord S) : Nat :=
  match c.result with
  | .ok _ => c.command.chunkLength
  | .error _ => 0

end CallRecord

/-- The tokens the backend returned for a sequence, oldest first. -/
def answeredTokens (id : String) : List (CallRecord S) → List GeneratedToken
  | [] => []
  | c :: rest => answeredTokens id rest ++ (c.tokenFor id).toList

/-- How many prompt tokens of a sequence were submitted in chunks. -/
def submittedTokens : List (CallRecord S) → Nat
  | [] => 0
  | c :: rest => submittedTokens rest + c.submitted

/-- The fields only the scheduler writes and its decisions depend on. -/
def ScheduledSequence.vital (runtime : ScheduledSequence) : ScheduledSequence :=
  { runtime with
    taken := 0
    state := { runtime.state with cancellation := false, kvBlockIds := [], prefillMs := 0, decodeMs := 0 } }

/-- A sequence as the scheduler sees it, with its block table and the calls made for it. -/
structure RefView (S : Type) where
  sequence : ScheduledSequence
  table : Option (List BlockId)
  records : List (CallRecord S)

namespace RefView

variable (v : RefView S)

def phase : SequencePhase := v.sequence.state.phase

def generated : List TokenId := v.sequence.state.generatedTokenIds

def limit : Nat := v.sequence.state.sampling.maxNewTokens

def answered : List GeneratedToken := answeredTokens v.sequence.state.requestId v.records

def submitted : Nat := submittedTokens v.records

/-- The length of the sequence's cache as the backend last told it. -/
def toldLength : Nat := v.answered.getLast?.elim 0 GeneratedToken.cacheTokens

def Clean : Prop := ∀ c ∈ v.records, c.errorFor v.sequence.state.requestId = none

/-- The exception was met in a call made for the sequence, or none was met in them. -/
def Blames (error : Raised) : Prop := v.Clean ∨ ∃ c ∈ v.records, c.errorFor v.sequence.state.requestId = some error

/-- The table has the blocks for the prompt and all tokens to come. -/
def Sized (dimensions : KvDimensions) (prompt : TokenizedPrompt) : Prop :=
  ∃ blocks, v.table = some blocks ∧ ∃ a : KVBlockAllocator, a.dimensions = dimensions ∧
    a.blocksForTokens (prompt.tokenIds.length + v.limit : Nat) = .ok blocks.length

/-- A final chunk that was answered without a token. -/
def Stalled : Prop :=
  ∃ c ∈ v.records, ∃ id chunk parameters sequences,
    c = ⟨.direct (.prefillChunk id chunk parameters true), sequences, .ok none⟩

/-- A new sequence. -/
structure Fresh : Prop where
  phase : v.phase = .queued
  tokenized : v.sequence.tokenized = none
  backendCreated : v.sequence.backendCreated = false
  generated : v.generated = []
  prefillOffset : v.sequence.prefillOffset = 0
  records : v.records = []
  promptTokenIds : v.sequence.state.promptTokenIds = []

/-- A tokenized sequence with its blocks, none of whose tokens was asked for. -/
structure Promptable (config : EngineConfig) (dimensions : KvDimensions) (prompt : TokenizedPrompt) : Prop where
  tokenized : v.sequence.tokenized = some prompt
  promptTokenIds : v.sequence.state.promptTokenIds = prompt.tokenIds
  sized : v.Sized dimensions prompt
  generated : v.generated = []
  answered : v.answered = []
  clean : v.Clean
  submitted : v.submitted = v.sequence.prefillOffset
  whole : config.prefillChunkSizeTokens = 0 → v.sequence.prefillOffset = 0
  unfinished : v.sequence.prefillOffset < prompt.tokenIds.length ∨
    v.sequence.prefillOffset ≤ prompt.tokenIds.length ∧ v.Stalled

structure Prefilling (config : EngineConfig) (dimensions : KvDimensions) (prompt : TokenizedPrompt) : Prop
    extends v.Promptable config dimensions prompt where
  phase : v.phase = .prefill
  backendCreated : v.sequence.backendCreated = true

/-- All tokens asked for so far were accepted; the next may be asked for. -/
structure Awaiting (dimensions : KvDimensions) : Prop where
  prompted : ∃ prompt, v.sequence.tokenized = some prompt ∧
    v.sequence.state.promptTokenIds = prompt.tokenIds ∧ v.Sized dimensions prompt
  backendCreated : v.sequence.backendCreated = true
  accepted : v.answered.map GeneratedToken.tokenId = v.generated
  room : v.generated.length < v.limit
  clean : v.Clean
  phase : v.phase = .prefill ∧ v.generated = [] ∨ v.phase = .decode ∧ v.generated ≠ []

structure Decoding (dimensions : KvDimensions) : Prop extends v.Awaiting dimensions where
  decode : v.phase = .decode
  cached : v.sequence.cacheTokens = v.toldLength

/-- A token was accepted, and the next one may be asked for. -/
structure Extended (dimensions : KvDimensions) (v' : RefView S) : Prop where
  decoding : v'.Decoding dimensions
  generated : ∃ token, v'.generated = v.generated ++ [token]
  sampling : v'.sequence.state.sampling = v.sequence.state.sampling

/-- The backend returned a token that is not accepted yet. -/
structure Pending (dimensions : KvDimensions) (token : GeneratedToken) : Prop where
  prompted : ∃ prompt, v.sequence.tokenized = some prompt ∧
    v.sequence.state.promptTokenIds = prompt.tokenIds ∧ v.Sized dimensions prompt
  backendCreated : v.sequence.backendCreated = true
  answered : ∃ before, v.answered = before ++ [token] ∧ before.map GeneratedToken.tokenId = v.generated
  room : v.generated.length < v.limit
  clean : v.Clean
  phase : v.phase = .prefill ∧ v.generated = [] ∨ v.phase = .decode ∧ v.generated ≠ []

/-- How a live sequence looks between two turns of the scheduler. -/
def Settled (config : EngineConfig) (dimensions : KvDimensions) : Prop :=
  v.Fresh ∨ (∃ prompt, v.Prefilling config dimensions prompt) ∨ v.Decoding dimensions

end RefView

namespace Shared

variable {backend : InferenceBackend S} (t : Shared backend)

def recordsOf (r : Ref) : List (CallRecord S) := t.log.filter fun c => r ∈ c.sequences

def view (r : Ref) : RefView S where
  sequence := (t.engine.sequences r).vital
  table := t.engine.kvAllocator.owners.get? (t.engine.requestId r)
  records := t.recordsOf r

def ActiveRef (r : Ref) : Prop := t.engine.active.get? (t.engine.requestId r) = some r

def Cancelled (r : Ref) : Prop := (t.engine.sequences r).state.cancellation = true

end Shared

/-- A call that answered for all it was asked, and no failed release. -/
def CallRecord.Proper (c : CallRecord S) : Prop :=
  match c with
  | ⟨.direct (.releaseSequence _), _, result⟩ => result = .ok ()
  | ⟨.direct (.prefillChunk _ _ _ final), _, .ok answer⟩ => final = true → answer ≠ none
  | ⟨.direct (.prefillBatch requests), _, .ok outcome⟩ =>
    ∀ request ∈ requests, outcome.failures.get? request.sequenceId = none →
      outcome.tokens.get? request.sequenceId ≠ none
  | ⟨.prefillFallback requests, _, .ok outcome⟩ =>
    ∀ request ∈ requests, outcome.failures.get? request.sequenceId = none →
      outcome.tokens.get? request.sequenceId ≠ none
  | ⟨.direct (.decodeBatch requests), _, .ok outcome⟩ =>
    ∀ request ∈ requests, outcome.failures.get? request.sequenceId = none →
      outcome.tokens.get? request.sequenceId ≠ none
  | ⟨.decodeFallback requests, _, .ok outcome⟩ =>
    ∀ request ∈ requests, outcome.failures.get? request.sequenceId = none →
      outcome.tokens.get? request.sequenceId ≠ none
  | _ => True

def CallRecord.IsResume (c : CallRecord S) : Prop :=
  ∃ id snapshot suffix parameters sequences result,
    c = ⟨.direct (.resumePrefix id snapshot suffix parameters), sequences, result⟩

def CallRecord.FailedSnapshot (c : CallRecord S) : Prop :=
  ∃ id sequences error, c = ⟨.direct (.snapshotPrefix id), sequences, .error error⟩

/-- Every call is proper, and a snapshot fails only for a sequence whose
prompt was resumed from a cached prefix. The last call comes first. -/
def Covered : List (CallRecord S) → Prop
  | [] => True
  | c :: rest => c.Proper ∧ (c.FailedSnapshot → ∃ d ∈ rest, d.IsResume ∧ d.sequences = c.sequences) ∧ Covered rest

/-- No cached prefix was resumed for the sequence. -/
def RefView.Unresumed (v : RefView S) : Prop := ∀ c ∈ v.records, ¬ c.IsResume

end ServingPlatform
