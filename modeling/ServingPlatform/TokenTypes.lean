import Mathlib.Data.List.Nodup
import ServingPlatform.Errors

namespace ServingPlatform

abbrev TokenId := Int

/-- Readings of the monotonic clocks, in seconds at any fixed resolution. -/
abbrev Seconds := Int

inductive SequencePhase
  | queued
  | prefill
  | decode
  | completed
  | cancelled
  | timedOut
  | failed
  deriving DecidableEq, Repr

inductive FinishReason
  | eos
  | stop
  | length
  | cancelled
  | timeout
  | failed
  deriving DecidableEq, Repr

/-- The part of the sampling parameters that scheduling reads, with the
checks of `__post_init__` as fields. -/
structure SamplingParameters where
  maxNewTokens : Nat
  stopTokenIds : List TokenId
  positive : 0 < maxNewTokens
  stopDistinct : stopTokenIds.Nodup
  stopLimited : stopTokenIds.length ≤ 32
  stopNonnegative : ∀ token ∈ stopTokenIds, 0 ≤ token

/-- Parameters without stop tokens. -/
def SamplingParameters.unstopped (maxNewTokens : Nat) (positive : 0 < maxNewTokens) : SamplingParameters :=
  ⟨maxNewTokens, [], positive, .nil, by decide, by simp⟩

structure TokenizedPrompt where
  tokenIds : List TokenId
  nonempty : tokenIds ≠ []

def TokenizedPrompt.ofTokens (tokenIds : List TokenId) : Except Raised TokenizedPrompt :=
  if nonempty : tokenIds ≠ [] then .ok ⟨tokenIds, nonempty⟩
  else .error (valueError "tokenized prompt must not be empty")

structure GeneratedToken where
  tokenId : TokenId
  text : String
  index : Nat
  cacheTokens : Nat
  deriving DecidableEq, Repr

structure GenerationComplete where
  finishReason : FinishReason
  inputTokens : Nat
  outputTokens : Nat
  prefillMs : Int
  decodeMs : Int
  deriving DecidableEq, Repr

structure SequenceState where
  requestId : String
  prompt : String
  sampling : SamplingParameters
  deadline : Seconds
  phase : SequencePhase := .queued
  promptTokenIds : List TokenId := []
  generatedTokenIds : List TokenId := []
  kvBlockIds : List Int := []
  prefillMs : Int := 0
  decodeMs : Int := 0
  createdAt : Seconds
  cancellation : Bool := false

def SequencePhase.isTerminal : SequencePhase → Bool
  | .completed | .cancelled | .timedOut | .failed => true
  | .queued | .prefill | .decode => false

def SequenceState.terminal (state : SequenceState) : Bool := state.phase.isTerminal

end ServingPlatform
