import ServingPlatform.TokenBackend.Effects

namespace ServingPlatform.HuggingFaceTokenBackend

open Attempt

variable {rt : TokenRuntime} {b b' : HuggingFaceTokenBackend rt} {id sequenceId : String}

/-- What is held for one sequence. -/
def entry (id : String) (b : HuggingFaceTokenBackend rt) : Option (SequenceCache rt) := b.sequences.get? id

section Frames

theorem keeps_entry {α : Type} {m : Method rt α} (kept : m.Keeps books) : m.Keeps (entry id) := by
  intro b
  have same : (m b).2.sequences = b.sequences := congrArg Prod.fst (kept b)
  rw [entry, entry, same]

theorem entry_store {sequence : SequenceCache rt} : entry sequenceId (store sequenceId sequence b) = some sequence :=
  Dict.get?_insert_self

theorem entry_store_of_ne {sequence : SequenceCache rt} (differ : id ≠ sequenceId) :
    entry id (store sequenceId sequence b) = entry id b := Dict.get?_insert_of_ne differ

theorem keeps_store {sequence : SequenceCache rt} (differ : id ≠ sequenceId) :
    (update (store sequenceId sequence) : Method rt Unit).Keeps (entry id) := fun _ => entry_store_of_ne differ

theorem keeps_call {input : ModelCall rt.Cache} {left : rt.Cache → HuggingFaceTokenBackend rt → HuggingFaceTokenBackend rt}
    (kept : ∀ cache b, entry id (left cache b) = entry id b) : (call input left).Keeps (entry id) := by
  intro b
  unfold call
  split
  · rfl
  · exact kept _ _

theorem keeps_check {α : Type} {c : Prop} [Decidable c] {e : Raised} {after : Unit → Method rt α} (rest : (after ()).Keeps (entry id)) :
    (if c then raise e >>= after else after ()).Keeps (entry id) := by
  split
  · exact (keeps_raise _).bind fun _ => rest
  · exact rest

theorem keeps_restorePrefixCache {snapshot : PrefixSnapshot rt} {tokenId : TokenId} (differ : id ≠ sequenceId) :
    (restorePrefixCache sequenceId snapshot tokenId).Keeps (entry id) :=
  (keeps_store differ).bind fun _ => keeps_pure _

theorem keeps_restorePrefix {snapshot : PrefixSnapshot rt} {parameters : SamplingParameters} (differ : id ≠ sequenceId) :
    (restorePrefix sequenceId snapshot parameters).Keeps (entry id) :=
  (keeps_entry keeps_requireActive).bind fun _ => (keeps_entry keeps_requireAbsent).bind fun _ =>
    (keeps_entry keeps_token).bind fun _ => (keeps_restorePrefixCache differ).bind fun _ => keeps_entry keeps_generated

theorem keeps_prefill {request : PrefillRequest} (differ : id ≠ request.sequenceId) :
    (prefill request : Method rt GeneratedToken).Keeps (entry id) :=
  (keeps_entry keeps_requireActive).bind fun _ => (keeps_entry keeps_requireAbsent).bind fun _ =>
    (keeps_entry keeps_loadModel).bind fun _ => (keeps_entry keeps_requireModel).bind fun _ =>
      (keeps_call fun _ _ => rfl).bind fun _ => (keeps_entry keeps_token).bind fun _ =>
        (keeps_store differ).bind fun _ => keeps_entry keeps_generated

theorem keeps_prefillChunk {prompt : TokenizedPrompt} {parameters : SamplingParameters} {final : Bool}
    (differ : id ≠ sequenceId) : (prefillChunk sequenceId prompt parameters final : Method rt _).Keeps (entry id) := by
  refine (keeps_entry keeps_requireActive).bind fun _ => (keeps_entry keeps_loadModel).bind fun _ =>
    (keeps_entry keeps_requireModel).bind fun _ => (keeps_read _).bind fun existing => ?_
  refine (keeps_call fun cache b => ?_).bind fun outputs => (keeps_store differ).bind fun _ => ?_
  · cases existing with
    | none => rfl
    | some sequence => exact entry_store_of_ne differ
  · split
    · exact (keeps_entry keeps_token).bind fun _ => (keeps_store differ).bind fun _ =>
        (keeps_entry keeps_generated).bind fun _ => keeps_pure _
    · exact keeps_pure _

theorem keeps_resumePrefix {snapshot : PrefixSnapshot rt} {suffix : TokenizedPrompt} {parameters : SamplingParameters}
    (differ : id ≠ sequenceId) : (resumePrefix sequenceId snapshot suffix parameters).Keeps (entry id) := by
  refine (keeps_entry keeps_requireActive).bind fun _ => (keeps_entry keeps_requireAbsent).bind fun _ => ?_
  split
  · exact keeps_restorePrefix differ
  · refine (keeps_restorePrefixCache differ).bind fun _ => (keeps_prefillChunk differ).bind fun made => ?_
    cases made with
    | none => exact keeps_raise _
    | some made => exact keeps_pure _

theorem keeps_decode {request : DecodeRequest} (differ : id ≠ request.sequenceId) :
    (decode request : Method rt GeneratedToken).Keeps (entry id) := by
  refine (keeps_entry keeps_requireActive).bind fun _ => (keeps_read _).bind fun found => ?_
  cases found with
  | none => exact keeps_raise _
  | some sequence =>
    exact (keeps_entry keeps_requireModel).bind fun _ => (keeps_store differ).bind fun _ =>
      (keeps_call fun _ _ => entry_store_of_ne differ).bind fun _ => (keeps_store differ).bind fun _ =>
        (keeps_entry keeps_token).bind fun _ => (keeps_store differ).bind fun _ => keeps_entry keeps_generated

theorem keeps_storePrefilled {requests rest : List PrefillRequest} {logits : Nat → rt.Logits}
    (outside : id ∉ rest.map PrefillRequest.sequenceId) (row : Nat) (caches : List rt.Cache)
    (tokens : Dict String GeneratedToken) : (storePrefilled requests logits row rest caches tokens).Keeps (entry id) := by
  induction rest generalizing row caches tokens with
  | nil => cases caches <;> exact fun _ => rfl
  | cons request rest ih =>
    rw [List.map_cons, List.mem_cons, not_or] at outside
    cases caches with
    | nil => exact fun _ => rfl
    | cons cache caches =>
      exact (keeps_entry keeps_token).bind fun _ => (keeps_store outside.1).bind fun _ =>
        (keeps_entry keeps_generated).bind fun _ => ih outside.2 _ _ _

theorem keeps_storeDecoded {rest : List DecodeRequest} {logits : Nat → rt.Logits}
    (outside : id ∉ rest.map DecodeRequest.sequenceId) (row : Nat) (sequences : List (SequenceCache rt))
    (caches : List rt.Cache) (tokens : Dict String GeneratedToken) :
    (storeDecoded logits row rest sequences caches tokens).Keeps (entry id) := by
  induction rest generalizing row sequences caches tokens with
  | nil => cases sequences <;> cases caches <;> exact fun _ => rfl
  | cons request rest ih =>
    rw [List.map_cons, List.mem_cons, not_or] at outside
    cases sequences with
    | nil => exact fun _ => rfl
    | cons sequence sequences =>
      cases caches with
      | nil => exact fun _ => rfl
      | cons cache caches =>
        exact (keeps_entry keeps_token).bind fun _ => (keeps_read _).bind fun _ => (keeps_store outside.1).bind fun _ =>
          (keeps_entry keeps_generated).bind fun _ => ih outside.2 _ _ _ _

theorem keeps_prefillBatch {requests : List PrefillRequest} (outside : id ∉ requests.map PrefillRequest.sequenceId) :
    (prefillBatch requests : Method rt BatchTokenResult).Keeps (entry id) := by
  match requests with
  | [] => exact keeps_pure _
  | [request] =>
    have differ : id ≠ request.sequenceId := fun same => outside (List.mem_singleton.mpr same)
    exact (keeps_prefill differ).bind fun _ => keeps_pure _
  | first :: second :: rest =>
    refine (keeps_entry keeps_requireActive).bind fun _ => keeps_check ((keeps_read _).bind fun known => keeps_check ?_)
    refine (keeps_entry keeps_loadModel).bind fun _ => (keeps_entry keeps_requireModel).bind fun _ =>
      (keeps_read _).bind fun tokenizer => ?_
    cases tokenizer with
    | none => exact keeps_raise _
    | some tokenizer =>
      dsimp only
      cases tokenizer.padTokenId with
      | none => exact keeps_raise _
      | some padId =>
        exact (keeps_call fun _ _ => rfl).bind fun _ => (keeps_storePrefilled outside _ _ _).bind fun _ => keeps_pure _

theorem keeps_decodeBatch {requests : List DecodeRequest} (outside : id ∉ requests.map DecodeRequest.sequenceId) :
    (decodeBatch requests : Method rt BatchTokenResult).Keeps (entry id) := by
  match requests with
  | [] => exact keeps_pure _
  | [request] =>
    have differ : id ≠ request.sequenceId := fun same => outside (List.mem_singleton.mpr same)
    exact (keeps_decode differ).bind fun _ => keeps_pure _
  | first :: second :: rest =>
    have looks : Keeps (fun b => (b.lookup (first :: second :: rest), b) : Method rt (List (SequenceCache rt))) (entry id) :=
      fun _ => rfl
    exact looks.bind fun sequences => keeps_check ((keeps_entry keeps_requireModel).bind fun _ =>
      keeps_check ((keeps_call fun _ _ => rfl).bind fun _ => (keeps_storeDecoded outside _ _ _ _).bind fun _ => keeps_pure _))

end Frames

section Answers

variable {token : GeneratedToken} {parameters : SamplingParameters}

theorem ran {α τ : Type} {m : Method rt α} {reading : HuggingFaceTokenBackend rt → τ} {result : Except Raised α}
    (kept : m.Keeps reading) (run : m b = (result, b')) : reading b' = reading b := by
  have same := kept b
  rw [run] at same
  exact same

theorem check_ok {α : Type} {c : Prop} [Decidable c] {e : Raised} {after : Unit → Method rt α} {a : α}
    (run : (if c then raise e >>= after else after ()) b = (.ok a, b')) : ¬c ∧ after () b = (.ok a, b') := by
  split at run
  · cases run
  · rename_i passed
    exact ⟨passed, run⟩

theorem generated_ok {tokenId : TokenId} {index : Nat} {cache : rt.Cache}
    (run : generated tokenId index cache b = (.ok token, b')) : token.tokenId = tokenId ∧ entry id b' = entry id b := by
  refine ⟨?_, ran (keeps_entry keeps_generated) run⟩
  obtain ⟨tokenizer, middle, -, rest⟩ := bind_eq_ok run
  cases tokenizer with
  | none => cases rest
  | some tokenizer =>
    cases rest
    rfl

theorem call_ok {input : ModelCall rt.Cache} {left : rt.Cache → HuggingFaceTokenBackend rt → HuggingFaceTokenBackend rt}
    {outputs : ModelOutputs rt.Cache rt.Logits} (run : call input left b = (.ok outputs, b')) :
    Answers rt input outputs ∧ entry id b' = entry id b := by
  unfold call at run
  split at run
  · rename_i outputs' world answered
    cases run
    exact ⟨⟨b.world, world, answered⟩, rfl⟩
  · cases run

/-- A prompt that was prefilled alone is stored with its token. -/
theorem prefill_ok {request : PrefillRequest} (run : prefill request b = (.ok token, b')) :
    ∃ outputs logits, Answers rt (prefillCall rt request.prompt) outputs ∧ entry request.sequenceId b' = some {
      cache := outputs.pastKeyValues
      attentionMask := List.replicate request.prompt.tokenIds.length 1
      cachePosition := [request.prompt.tokenIds.length]
      lastTokenId := token.tokenId
      nextTokenLogits := some logits } := by
  obtain ⟨-, b₁, -, run⟩ := bind_eq_ok run
  obtain ⟨-, b₂, -, run⟩ := bind_eq_ok run
  obtain ⟨-, b₃, -, run⟩ := bind_eq_ok run
  obtain ⟨-, b₄, -, run⟩ := bind_eq_ok run
  obtain ⟨outputs, b₅, called, run⟩ := bind_eq_ok run
  obtain ⟨tokenId, b₆, -, run⟩ := bind_eq_ok run
  rw [bind_ok run_update] at run
  obtain ⟨rfl, same⟩ := @generated_ok _ _ _ request.sequenceId _ _ _ _ run
  refine ⟨outputs, outputs.logits 0, (@call_ok _ _ _ request.sequenceId _ _ _ called).1, ?_⟩
  rw [same, entry_store, List.range_eq_range', nextPosition_range (TokenizedPrompt.length_pos _), Nat.zero_add]

theorem requireAbsent_ok (run : requireAbsent sequenceId b = (.ok (), b')) : entry sequenceId b = none := by
  have decided : requireAbsent sequenceId b = (if b.sequences.contains sequenceId = true then
      (raise (valueError s!"sequence already exists: {sequenceId}") : Method rt Unit) else pure ()) b := rfl
  rw [decided] at run
  split at run
  · cases run
  · rename_i absent
    exact Dict.contains_eq_false_iff.mp (eq_false_of_ne_true absent)

/-- A snapshot is restored for a new sequence, and stored with its token. -/
theorem restorePrefix_ok {snapshot : PrefixSnapshot rt} (run : restorePrefix sequenceId snapshot parameters b = (.ok token, b')) :
    entry sequenceId b = none ∧ entry sequenceId b' = some ⟨snapshot.cache, snapshot.attentionMask,
      snapshot.cachePosition, token.tokenId, some snapshot.nextTokenLogits⟩ := by
  obtain ⟨_, b₁, active, run⟩ := bind_eq_ok run
  obtain ⟨_, b₂, absent, run⟩ := bind_eq_ok run
  obtain ⟨tokenId, b₃, -, run⟩ := bind_eq_ok run
  obtain ⟨cache, b₄, stored, run⟩ := bind_eq_ok run
  cases stored
  obtain ⟨rfl, same⟩ := @generated_ok _ _ _ sequenceId _ _ _ _ run
  refine ⟨?_, same.trans entry_store⟩
  rw [← ran (keeps_entry keeps_requireActive) active]
  exact requireAbsent_ok absent

/-- A chunk is put behind what is held for the sequence; the last one brings a token. -/
theorem prefillChunk_ok {prompt : TokenizedPrompt} {final : Bool} {answer : Option GeneratedToken}
    (run : prefillChunk sequenceId prompt parameters final b = (.ok answer, b')) :
    ∃ outputs lastTokenId nextTokenLogits, Answers rt (chunkCall (entry sequenceId b) prompt) outputs ∧
      entry sequenceId b' = some {
        cache := outputs.pastKeyValues
        attentionMask := (entry sequenceId b).elim [] SequenceCache.attentionMask ++
          List.replicate prompt.tokenIds.length 1
        cachePosition := nextPosition (chunkCall (entry sequenceId b) prompt).cachePosition
        lastTokenId
        nextTokenLogits } ∧
      ∀ token ∈ answer, final = true ∧ lastTokenId = token.tokenId := by
  obtain ⟨_, b₁, active, run⟩ := bind_eq_ok run
  obtain ⟨_, b₂, loads, run⟩ := bind_eq_ok run
  obtain ⟨_, b₃, loaded, run⟩ := bind_eq_ok run
  have kept : entry sequenceId b₃ = entry sequenceId b :=
    (ran (keeps_entry keeps_requireModel) loaded).trans
      ((ran (keeps_entry keeps_loadModel) loads).trans (ran (keeps_entry keeps_requireActive) active))
  rw [bind_ok run_read] at run
  obtain ⟨outputs, b₄, called, run⟩ := bind_eq_ok run
  have answers := (@call_ok _ _ _ sequenceId _ _ _ called).1
  rw [bind_ok run_update] at run
  rw [show b₃.sequences.get? sequenceId = entry sequenceId b from kept] at run answers
  cases final with
  | false =>
    cases run
    exact ⟨outputs, _, _, answers, entry_store, fun token none => by cases none⟩
  | true =>
    obtain ⟨tokenId, b₅, -, run⟩ := bind_eq_ok run
    rw [bind_ok run_update] at run
    obtain ⟨made, b₆, generates, run⟩ := bind_eq_ok run
    cases run
    obtain ⟨rfl, same⟩ := @generated_ok _ _ _ sequenceId _ _ _ _ generates
    refine ⟨outputs, made.tokenId, _, answers, same.trans entry_store, fun token found => ?_⟩
    cases found
    exact ⟨rfl, rfl⟩

/-- A resumed prefix is a restored one with a last chunk behind it. -/
theorem resumePrefix_ok {snapshot : PrefixSnapshot rt} {suffix : TokenizedPrompt}
    (run : resumePrefix sequenceId snapshot suffix parameters b = (.ok token, b')) :
    entry sequenceId b = none ∧ ∃ outputs nextTokenLogits restored,
      restored = (⟨snapshot.cache, snapshot.attentionMask, snapshot.cachePosition, -1, some snapshot.nextTokenLogits⟩ :
        SequenceCache rt) ∧ Answers rt (chunkCall (some restored) suffix) outputs ∧ entry sequenceId b' = some {
        cache := outputs.pastKeyValues
        attentionMask := snapshot.attentionMask ++ List.replicate suffix.tokenIds.length 1
        cachePosition := nextPosition (chunkCall (some restored) suffix).cachePosition
        lastTokenId := token.tokenId
        nextTokenLogits } := by
  obtain ⟨_, b₁, active, run⟩ := bind_eq_ok run
  obtain ⟨_, b₂, absent, run⟩ := bind_eq_ok run
  have none : entry sequenceId b = none := by
    rw [← ran (keeps_entry keeps_requireActive) active]
    exact requireAbsent_ok absent
  rw [if_neg suffix.nonempty] at run
  obtain ⟨cache, b₃, stored, run⟩ := bind_eq_ok run
  cases stored
  obtain ⟨made, b₄, chunk, run⟩ := bind_eq_ok run
  cases made with
  | none => cases run
  | some made =>
    cases run
    obtain ⟨outputs, lastTokenId, nextTokenLogits, answers, held, tokens⟩ := prefillChunk_ok chunk
    rw [entry_store] at answers held
    obtain ⟨-, rfl⟩ := tokens _ rfl
    exact ⟨none, outputs, nextTokenLogits, _, rfl, answers, held⟩

/-- A snapshot is what is held for the sequence. -/
theorem snapshotPrefix_ok {snapshot : PrefixSnapshot rt} (run : snapshotPrefix sequenceId b = (.ok snapshot, b')) :
    ∃ sequence, entry sequenceId b = some sequence ∧ snapshot.cache = sequence.cache ∧
      snapshot.attentionMask = sequence.attentionMask ∧ snapshot.cachePosition = sequence.cachePosition := by
  have read : ((Attempt.read fun b => b.sequences.get? sequenceId : Method rt _) b) = (.ok (entry sequenceId b), b) := rfl
  unfold snapshotPrefix at run
  rw [bind_ok read] at run
  cases held : entry sequenceId b with
  | none =>
    rw [held] at run
    cases run
  | some sequence =>
    rw [held] at run
    cases logits : sequence.nextTokenLogits with
    | none =>
      simp only [logits] at run
      cases run
    | some logits' =>
      simp only [logits] at run
      cases run
      exact ⟨sequence, rfl, rfl, rfl, rfl⟩

/-- A decode puts the last token behind what is held for the sequence. -/
theorem decode_ok {request : DecodeRequest} (run : decode request b = (.ok token, b')) :
    ∃ sequence outputs, entry request.sequenceId b = some sequence ∧ Answers rt (decodeCall sequence) outputs ∧
      entry request.sequenceId b' = some {
        cache := outputs.pastKeyValues
        attentionMask := sequence.attentionMask ++ [1]
        cachePosition := sequence.cachePosition.map (· + 1)
        lastTokenId := token.tokenId
        nextTokenLogits := none } := by
  obtain ⟨_, b₁, active, run⟩ := bind_eq_ok run
  rw [bind_ok run_read] at run
  rw [show b₁.sequences.get? request.sequenceId = entry request.sequenceId b from
    ran (keeps_entry keeps_requireActive) active] at run
  cases held : entry request.sequenceId b with
  | none =>
    rw [held] at run
    cases run
  | some sequence =>
    rw [held] at run
    obtain ⟨_, b₂, loaded, run⟩ := bind_eq_ok run
    rw [bind_ok run_update] at run
    obtain ⟨outputs, b₃, called, run⟩ := bind_eq_ok run
    rw [bind_ok run_update] at run
    obtain ⟨tokenId, b₄, -, run⟩ := bind_eq_ok run
    rw [bind_ok run_update] at run
    obtain ⟨rfl, same⟩ := @generated_ok _ _ _ request.sequenceId _ _ _ _ run
    exact ⟨sequence, outputs, rfl, (@call_ok _ _ _ request.sequenceId _ _ _ called).1, same.trans entry_store⟩

section Batches

variable {requests : List PrefillRequest} {logits : Nat → rt.Logits} {tokens made : Dict String GeneratedToken}

/-- The rows of a batch are stored each with its part of the cache and its token. -/
theorem storePrefilled_ok {rest : List PrefillRequest} {row : Nat} {caches : List rt.Cache}
    (distinct : (rest.map PrefillRequest.sequenceId).Nodup)
    (run : storePrefilled requests logits row rest caches tokens b = (.ok made, b')) :
    rest.length = caches.length ∧ (∀ id ∉ rest.map PrefillRequest.sequenceId, made.get? id = tokens.get? id) ∧
      ∀ (i : Nat) (request : PrefillRequest) (cache : rt.Cache), rest[i]? = some request → caches[i]? = some cache →
        ∃ token nextTokenLogits, made.get? request.sequenceId = some token ∧ entry request.sequenceId b' = some {
          cache
          attentionMask := maskRow requests request
          cachePosition := nextPosition (List.range (width requests))
          lastTokenId := token.tokenId
          nextTokenLogits } := by
  induction rest generalizing row caches tokens b with
  | nil =>
    cases caches with
    | nil =>
      cases run
      exact ⟨rfl, fun _ _ => rfl, fun i request cache none => by cases none⟩
    | cons cache caches => cases run
  | cons request rest ih =>
    cases caches with
    | nil => cases run
    | cons cache caches =>
      rw [List.map_cons, List.nodup_cons] at distinct
      obtain ⟨tokenId, b₁, -, stores⟩ := bind_eq_ok run
      rw [bind_ok run_update] at stores
      obtain ⟨token, b₂, generates, goesOn⟩ := bind_eq_ok stores
      obtain ⟨rfl, same⟩ := @generated_ok _ _ _ request.sequenceId _ _ _ _ generates
      obtain ⟨sizes, others, rows⟩ := ih distinct.2 goesOn
      refine ⟨congrArg Nat.succ sizes, fun id outside => ?_, fun i other part isRow isPart => ?_⟩
      · rw [List.map_cons, List.mem_cons, not_or] at outside
        rw [others id outside.2, Dict.get?_insert_of_ne outside.1]
      · cases i with
        | zero =>
          cases isRow
          cases isPart
          refine ⟨token, some (logits row), ?_, ?_⟩
          · rw [others _ distinct.1, Dict.get?_insert_self]
          · rw [ran (keeps_storePrefilled distinct.1 _ _ _) goesOn, same, entry_store]
        | succ i => exact rows i other part isRow isPart

theorem prefillBatch_ok {outcome : BatchTokenResult} (distinct : (requests.map PrefillRequest.sequenceId).Nodup)
    (run : prefillBatch requests b = (.ok outcome, b')) {i : Nat} {request : PrefillRequest} (isRow : requests[i]? = some request) :
    ∃ padId outputs caches, Answers rt (prefillBatchCall rt padId requests) outputs ∧
      (caches = rt.batchSplit outputs.pastKeyValues requests.length ∨
        requests.length = 1 ∧ caches = [outputs.pastKeyValues]) ∧
      requests.length = caches.length ∧ ∀ cache, caches[i]? = some cache → ∃ token nextTokenLogits,
        outcome.tokens.get? request.sequenceId = some token ∧ entry request.sequenceId b' = some {
          cache
          attentionMask := maskRow requests request
          cachePosition := nextPosition (List.range (width requests))
          lastTokenId := token.tokenId
          nextTokenLogits } := by
  match requests with
  | [] => cases isRow
  | [single] =>
    rw [prefillBatch_single] at run
    obtain ⟨token, b₁, prefills, run⟩ := bind_eq_ok run
    cases run
    obtain ⟨outputs, logits, answers, held⟩ := prefill_ok prefills
    cases i with
    | zero =>
      cases isRow
      refine ⟨0, outputs, [outputs.pastKeyValues], ?_, Or.inr ⟨rfl, rfl⟩, rfl, fun cache isPart => ?_⟩
      · rw [prefillBatchCall_single]
        exact answers
      · cases isPart
        refine ⟨token, some logits, Dict.get?_insert_self, ?_⟩
        rw [held, maskRow, padding_single, width_single, List.range_eq_range',
          nextPosition_range (TokenizedPrompt.length_pos _), Nat.zero_add]
        rfl
    | succ i => cases isRow
  | first :: second :: rest =>
    unfold prefillBatch at run
    obtain ⟨-, b₁, -, checked⟩ := bind_eq_ok run
    obtain ⟨-, fresh⟩ := check_ok checked
    obtain ⟨known, b₂, -, checked⟩ := bind_eq_ok fresh
    obtain ⟨-, absent⟩ := check_ok checked
    obtain ⟨-, b₃, -, loads⟩ := bind_eq_ok absent
    obtain ⟨-, b₄, -, model⟩ := bind_eq_ok loads
    obtain ⟨tokenizer, b₅, -, pads⟩ := bind_eq_ok model
    cases tokenizer with
    | none => cases pads
    | some tokenizer =>
      dsimp only at pads
      cases padTokenId : tokenizer.padTokenId with
      | none =>
        rw [padTokenId] at pads
        cases pads
      | some padId =>
        rw [padTokenId] at pads
        obtain ⟨outputs, b₆, called, stores⟩ := bind_eq_ok pads
        obtain ⟨tokens, b₇, stored, ends⟩ := bind_eq_ok stores
        cases ends
        obtain ⟨sizes, -, rows⟩ := storePrefilled_ok distinct stored
        refine ⟨padId, outputs, _, (@call_ok _ _ _ "" _ _ _ called).1, Or.inl rfl, sizes, fun cache isPart => ?_⟩
        exact rows i request cache isRow isPart

theorem lookup_ok {requests : List DecodeRequest} {sequences : List (SequenceCache rt)}
    (run : b.lookup requests = .ok sequences) :
    requests.length = sequences.length ∧ ∀ (i : Nat) (request : DecodeRequest) (sequence : SequenceCache rt),
      requests[i]? = some request → sequences[i]? = some sequence → entry request.sequenceId b = some sequence := by
  induction requests generalizing sequences with
  | nil =>
    cases run
    exact ⟨rfl, fun i request sequence none => by cases none⟩
  | cons first rest ih =>
    rw [lookup] at run
    split at run
    · cases run
    · rename_i sequence held
      cases others : b.lookup rest with
      | error error =>
        rw [others] at run
        cases run
      | ok found =>
        rw [others] at run
        cases run
        obtain ⟨sizes, entries⟩ := ih others
        refine ⟨congrArg Nat.succ sizes, fun i request other isRow isEntry => ?_⟩
        cases i with
        | zero =>
          cases isRow
          cases isEntry
          exact held
        | succ i => exact entries i request other isRow isEntry

/-- The rows of a decode batch get each its part of the cache, its token and the next position. -/
theorem storeDecoded_ok {rest : List DecodeRequest} {row : Nat} {sequences : List (SequenceCache rt)} {caches : List rt.Cache}
    (distinct : (rest.map DecodeRequest.sequenceId).Nodup)
    (held : ∀ (i : Nat) (request : DecodeRequest) (sequence : SequenceCache rt), rest[i]? = some request →
      sequences[i]? = some sequence → entry request.sequenceId b = some sequence)
    (run : storeDecoded logits row rest sequences caches tokens b = (.ok made, b')) :
    rest.length = caches.length ∧ (∀ id ∉ rest.map DecodeRequest.sequenceId, made.get? id = tokens.get? id) ∧
      ∀ (i : Nat) (request : DecodeRequest) (sequence : SequenceCache rt) (cache : rt.Cache), rest[i]? = some request →
        sequences[i]? = some sequence → caches[i]? = some cache →
        ∃ token, made.get? request.sequenceId = some token ∧ entry request.sequenceId b' = some {
          cache
          attentionMask := sequence.attentionMask ++ [1]
          cachePosition := sequence.cachePosition.map (· + 1)
          lastTokenId := token.tokenId
          nextTokenLogits := none } := by
  induction rest generalizing row sequences caches tokens b with
  | nil =>
    cases sequences <;> cases caches <;> cases run
    exact ⟨rfl, fun _ _ => rfl, fun i request sequence cache none => by cases none⟩
  | cons request rest ih =>
    cases sequences with
    | nil => cases run
    | cons sequence sequences =>
      cases caches with
      | nil => cases run
      | cons cache caches =>
        rw [List.map_cons, List.nodup_cons] at distinct
        obtain ⟨tokenId, b₁, selects, reads⟩ := bind_eq_ok run
        have kept₁ : ∀ id, entry id b₁ = entry id b := fun id => ran (keeps_entry keeps_token) selects
        rw [bind_ok run_read, show (b₁.sequences.get? request.sequenceId).getD sequence = sequence from
          congrArg (Option.getD · sequence) ((kept₁ _).trans (held 0 request sequence rfl rfl)), bind_ok run_update] at reads
        obtain ⟨token, b₂, generates, goesOn⟩ := bind_eq_ok reads
        have kept₂ := fun id => (@generated_ok _ _ _ id _ _ _ _ generates).2
        obtain ⟨rfl, -⟩ := @generated_ok _ _ _ request.sequenceId _ _ _ _ generates
        have heldNext : ∀ (i : Nat) (other : DecodeRequest) (next : SequenceCache rt), rest[i]? = some other →
            sequences[i]? = some next → entry other.sequenceId b₂ = some next := by
          intro i other next isRow isEntry
          have differ : other.sequenceId ≠ request.sequenceId := by
            intro same
            exact distinct.1 (same ▸ List.mem_map_of_mem (List.mem_of_getElem? isRow))
          rw [kept₂, entry_store_of_ne differ, kept₁]
          exact held (i + 1) other next isRow isEntry
        obtain ⟨sizes, others, rows⟩ := ih distinct.2 heldNext goesOn
        refine ⟨congrArg Nat.succ sizes, fun id outside => ?_, fun i other next part isRow isEntry isPart => ?_⟩
        · rw [List.map_cons, List.mem_cons, not_or] at outside
          rw [others id outside.2, Dict.get?_insert_of_ne outside.1]
        · cases i with
          | zero =>
            cases isRow
            cases isEntry
            cases isPart
            refine ⟨token, ?_, ?_⟩
            · rw [others _ distinct.1, Dict.get?_insert_self]
            · rw [ran (keeps_storeDecoded distinct.1 _ _ _ _) goesOn, kept₂, entry_store]
          | succ i => exact rows i other next part isRow isEntry isPart

/-- A batch of several rows is decoded in one call. -/
theorem decodeBatch_ok {requests : List DecodeRequest} {outcome : BatchTokenResult}
    (distinct : (requests.map DecodeRequest.sequenceId).Nodup) (several : 2 ≤ requests.length)
    (run : decodeBatch requests b = (.ok outcome, b')) :
    ∃ sequences outputs, requests.length = sequences.length ∧
      (∀ (i : Nat) (request : DecodeRequest) (sequence : SequenceCache rt), requests[i]? = some request →
        sequences[i]? = some sequence → entry request.sequenceId b = some sequence) ∧
      (∀ first ∈ sequences, ∀ second ∈ sequences, rt.cacheLength first.cache = rt.cacheLength second.cache) ∧
      Answers rt (decodeBatchCall sequences) outputs ∧
      requests.length = (rt.batchSplit outputs.pastKeyValues requests.length).length ∧
      ∀ (i : Nat) (request : DecodeRequest) (sequence : SequenceCache rt) (cache : rt.Cache), requests[i]? = some request →
        sequences[i]? = some sequence → (rt.batchSplit outputs.pastKeyValues requests.length)[i]? = some cache →
        ∃ token, outcome.tokens.get? request.sequenceId = some token ∧ entry request.sequenceId b' = some {
          cache
          attentionMask := sequence.attentionMask ++ [1]
          cachePosition := sequence.cachePosition.map (· + 1)
          lastTokenId := token.tokenId
          nextTokenLogits := none } := by
  match requests with
  | [] => cases several
  | [single] => exact absurd several (Nat.not_succ_le_self 1)
  | first :: second :: rest =>
    unfold decodeBatch at run
    obtain ⟨sequences, b₁, found, checked⟩ := bind_eq_ok run
    obtain ⟨looked, rfl⟩ := Prod.mk.inj found
    obtain ⟨equal, checked⟩ := check_ok checked
    obtain ⟨_, b₂, loaded, checked⟩ := bind_eq_ok checked
    obtain ⟨-, passed⟩ := check_ok checked
    obtain ⟨outputs, b₃, called, stores⟩ := bind_eq_ok passed
    obtain ⟨tokens, b₄, stored, ends⟩ := bind_eq_ok stores
    cases ends
    obtain ⟨sizes, entries⟩ := lookup_ok looked
    have kept : ∀ id, entry id b₃ = entry id b := fun id =>
      (@call_ok _ _ _ id _ _ _ called).2.trans (ran (keeps_entry keeps_requireModel) loaded)
    obtain ⟨parts, -, rows⟩ := storeDecoded_ok distinct
      (fun i request sequence isRow isEntry => (kept _).trans (entries i request sequence isRow isEntry)) stored
    exact ⟨sequences, outputs, sizes, entries, not_not.mp equal, (@call_ok _ _ _ "" _ _ _ called).1, parts, rows⟩

end Batches

end Answers

end ServingPlatform.HuggingFaceTokenBackend
