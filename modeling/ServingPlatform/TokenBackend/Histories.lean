import ServingPlatform.TokenBackend.Outcomes
import ServingPlatform.TokenEngine.ContentSteps
import ServingPlatform.TokenEngine.Machines

namespace ServingPlatform

/-- The tokens of a row that are not masked. -/
def unmask (mask : List Nat) (row : List TokenId) : List TokenId :=
  (mask.zip row).filterMap fun column => if column.1 = 0 then none else some column.2

section Masks

theorem unmask_append {mask mask' : List Nat} {row row' : List TokenId} (sizes : mask.length = row.length) :
    unmask (mask ++ mask') (row ++ row') = unmask mask row ++ unmask mask' row' := by
  rw [unmask, List.zip_append sizes, List.filterMap_append]
  rfl

theorem unmask_ones (row : List TokenId) : unmask (List.replicate row.length 1) row = row := by
  induction row with
  | nil => rfl
  | cons token row ih =>
    rw [unmask, List.length_cons, List.replicate_succ, List.zip_cons_cons, List.filterMap_cons, if_neg Nat.one_ne_zero]
    exact congrArg (token :: ·) ih

theorem unmask_zeros (n : Nat) (row : List TokenId) : unmask (List.replicate n 0) row = [] := by
  rw [unmask, List.filterMap_eq_nil_iff]
  intro column member
  rw [List.eq_of_mem_replicate (List.of_mem_zip member).1, if_pos rfl]

end Masks

/-- What `transformers` does with the caches it is given. `rows` are the tokens
behind the columns of a cache, a row for each sequence of a batch. -/
structure GrowingCaches (rt : TokenRuntime) where
  rows : rt.Cache → List (List TokenId)
  dynamicCache : rows rt.dynamicCache = []
  cacheLength : ∀ {cache : rt.Cache} {row : List TokenId}, rows cache = [row] → rt.cacheLength cache = row.length
  callEmpty : ∀ {input : ModelCall rt.Cache} {outputs : ModelOutputs rt.Cache rt.Logits},
    HuggingFaceTokenBackend.Answers rt input outputs → rows input.pastKeyValues = [] →
      rows outputs.pastKeyValues = input.inputIds
  callModel : ∀ {input : ModelCall rt.Cache} {outputs : ModelOutputs rt.Cache rt.Logits},
    HuggingFaceTokenBackend.Answers rt input outputs → (rows input.pastKeyValues).length = input.inputIds.length →
      rows outputs.pastKeyValues = List.zipWith (· ++ ·) (rows input.pastKeyValues) input.inputIds
  batchSplit : ∀ cache : rt.Cache, (rt.batchSplit cache (rows cache).length).map rows = (rows cache).map fun row => [row]
  fromBatchSplits : ∀ caches : List rt.Cache,
    (∀ first ∈ caches, ∀ second ∈ caches, rt.cacheLength first = rt.cacheLength second) →
      rows (rt.fromBatchSplits caches) = caches.flatMap rows

namespace GrowingCaches

variable {rt : TokenRuntime} (grows : GrowingCaches rt)

/-- The tokens of a cache of one row, if the mask covers it and the next position is behind it. -/
def columns (cache : rt.Cache) (mask : List Nat) (position : List Nat) : Option (List TokenId) :=
  let row := (grows.rows cache).headD []
  if grows.rows cache = [row] ∧ mask.length = row.length ∧ position = [row.length] then some (unmask mask row) else none

def holding (sequence : SequenceCache rt) : Holding :=
  (grows.columns sequence.cache sequence.attentionMask sequence.cachePosition).elim .damaged fun cached =>
    .intact ⟨cached, sequence.lastTokenId⟩

def holds (b : HuggingFaceTokenBackend rt) (id : String) : Holding := (b.sequences.get? id).elim .absent grows.holding

def kept (snapshot : PrefixSnapshot rt) : Option (List TokenId) :=
  grows.columns snapshot.cache snapshot.attentionMask snapshot.cachePosition

variable {grows} {cache : rt.Cache} {mask position : List Nat} {row ids : List TokenId}

theorem columns_of (isRow : grows.rows cache = [row]) (masked : mask.length = row.length) (next : position = [row.length]) :
    grows.columns cache mask position = some (unmask mask row) := by
  rw [columns, isRow]
  exact if_pos ⟨rfl, masked, next⟩

theorem columns_eq_some {cached : List TokenId} (held : grows.columns cache mask position = some cached) :
    ∃ row, grows.rows cache = [row] ∧ mask.length = row.length ∧ position = [row.length] ∧ cached = unmask mask row := by
  rw [columns] at held
  split at held
  · rename_i aligned
    cases held
    exact ⟨_, aligned.1, aligned.2.1, aligned.2.2, rfl⟩
  · cases held

/-- Tokens that are put behind a row, none of them masked. -/
theorem columns_appended {before : List TokenId} (isRow : grows.rows cache = [before ++ ids])
    (masked : mask.length = before.length) (next : position = [before.length + ids.length]) :
    grows.columns cache (mask ++ List.replicate ids.length 1) position = some (unmask mask before ++ ids) := by
  rw [columns_of isRow (by simp [masked]) (by rw [next, List.length_append]), unmask_append masked, unmask_ones]

theorem callRow {input : ModelCall rt.Cache} {outputs : ModelOutputs rt.Cache rt.Logits}
    (answers : HuggingFaceTokenBackend.Answers rt input outputs) (held : grows.rows input.pastKeyValues = [row])
    (inputs : input.inputIds = [ids]) : grows.rows outputs.pastKeyValues = [row ++ ids] := by
  have rows := grows.callModel answers (by rw [held, inputs]; rfl)
  rw [held, inputs] at rows
  exact rows

theorem holding_of {sequence : SequenceCache rt} {cached : List TokenId}
    (held : grows.columns sequence.cache sequence.attentionMask sequence.cachePosition = some cached) :
    grows.holding sequence = .intact ⟨cached, sequence.lastTokenId⟩ := by
  rw [holding, held]
  rfl

theorem columns_of_intact {sequence : SequenceCache rt} {contents : Contents}
    (held : grows.holding sequence = .intact contents) :
    grows.columns sequence.cache sequence.attentionMask sequence.cachePosition = some contents.cached ∧
      sequence.lastTokenId = contents.next := by
  rw [holding] at held
  cases columns : grows.columns sequence.cache sequence.attentionMask sequence.cachePosition with
  | none =>
    rw [columns] at held
    cases held
  | some cached =>
    rw [columns] at held
    cases held
    exact ⟨rfl, rfl⟩

end GrowingCaches

namespace HuggingFaceTokenBackend

open GrowingCaches Attempt

variable {rt : TokenRuntime} {grows : GrowingCaches rt} {b b' : HuggingFaceTokenBackend rt} {id sequenceId : String}
  {token : GeneratedToken} {parameters : SamplingParameters}

theorem holds_entry {sequence : SequenceCache rt} (held : entry id b = some sequence) :
    grows.holds b id = grows.holding sequence := by
  rw [holds, show b.sequences.get? id = some sequence from held]
  rfl

theorem holds_of_none (none : entry id b = none) : grows.holds b id = .absent := by
  rw [holds, show b.sequences.get? id = Option.none from none]
  rfl

theorem holds_congr (same : entry id b' = entry id b) : grows.holds b' id = grows.holds b id := by
  rw [holds, holds, show b'.sequences.get? id = b.sequences.get? id from same]

theorem entry_of_intact {contents : Contents} (held : grows.holds b id = .intact contents) :
    ∃ sequence, entry id b = some sequence ∧ grows.holding sequence = .intact contents := by
  rw [holds] at held
  cases found : b.sequences.get? id with
  | none =>
    rw [found] at held
    cases held
  | some sequence =>
    rw [found] at held
    exact ⟨sequence, found, held⟩

/-- The contents of a sequence that was just stored. -/
theorem holds_stored {cached : List TokenId} {sequence : SequenceCache rt} (held : entry id b = some sequence)
    (columns : grows.columns sequence.cache sequence.attentionMask sequence.cachePosition = some cached) :
    grows.holds b id = .intact ⟨cached, sequence.lastTokenId⟩ :=
  (holds_entry held).trans (holding_of columns)

theorem holds_prefill {request : PrefillRequest} (run : prefill request b = (.ok token, b')) :
    grows.holds b' request.sequenceId = .intact ⟨request.prompt.tokenIds, token.tokenId⟩ := by
  obtain ⟨outputs, logits, answers, held⟩ := prefill_ok run
  have rows : grows.rows outputs.pastKeyValues = [[] ++ request.prompt.tokenIds] :=
    grows.callEmpty answers grows.dynamicCache
  exact holds_stored held (@columns_appended rt grows _ [] _ request.prompt.tokenIds [] rows rfl (by simp))

/-- A chunk is put behind the columns of a cache. -/
theorem columns_chunk {sequence : SequenceCache rt} {prompt : TokenizedPrompt} {outputs : ModelOutputs rt.Cache rt.Logits}
    {cached : List TokenId} (answers : Answers rt (chunkCall (some sequence) prompt) outputs)
    (held : grows.columns sequence.cache sequence.attentionMask sequence.cachePosition = some cached) :
    grows.columns outputs.pastKeyValues (sequence.attentionMask ++ List.replicate prompt.tokenIds.length 1)
      (nextPosition (chunkCall (some sequence) prompt).cachePosition) = some (cached ++ prompt.tokenIds) := by
  obtain ⟨row, isRow, masked, -, rfl⟩ := columns_eq_some held
  refine columns_appended (callRow answers isRow rfl) masked ?_
  show nextPosition (List.range' (rt.cacheLength sequence.cache) _) = _
  rw [nextPosition_range (TokenizedPrompt.length_pos prompt), grows.cacheLength isRow]

theorem holds_prefillChunk {chunk : TokenizedPrompt} {final : Bool} {answer : Option GeneratedToken} {earlier : List TokenId}
    (run : prefillChunk sequenceId chunk parameters final b = (.ok answer, b'))
    (begun : (grows.holds b sequenceId).begun = some earlier) :
    ∃ next, grows.holds b' sequenceId = .intact ⟨earlier ++ chunk.tokenIds, next⟩ ∧
      ∀ token ∈ answer, final = true ∧ next = token.tokenId := by
  obtain ⟨outputs, lastTokenId, nextTokenLogits, answers, held, tokens⟩ := prefillChunk_ok run
  refine ⟨lastTokenId, holds_stored held ?_, tokens⟩
  cases before : entry sequenceId b with
  | none =>
    rw [holds_of_none before] at begun
    cases begun
    rw [before] at answers
    have rows : grows.rows outputs.pastKeyValues = [[] ++ chunk.tokenIds] := grows.callEmpty answers grows.dynamicCache
    refine columns_appended rows rfl ?_
    show nextPosition (List.range' 0 _) = _
    rw [nextPosition_range (TokenizedPrompt.length_pos chunk)]
    rfl
  | some sequence =>
    rw [holds_entry before, holding] at begun
    cases columns : grows.columns sequence.cache sequence.attentionMask sequence.cachePosition with
    | none =>
      rw [columns] at begun
      cases begun
    | some cached =>
      rw [columns] at begun
      cases begun
      rw [before] at answers
      exact columns_chunk answers columns

theorem holds_restorePrefix {snapshot : PrefixSnapshot rt} {key : List TokenId}
    (run : restorePrefix sequenceId snapshot parameters b = (.ok token, b')) (keeps : grows.kept snapshot = some key) :
    grows.holds b' sequenceId = .intact ⟨key, token.tokenId⟩ :=
  holds_stored (restorePrefix_ok run).2 keeps

theorem holds_resumePrefix {snapshot : PrefixSnapshot rt} {suffix : TokenizedPrompt} {key : List TokenId}
    (run : resumePrefix sequenceId snapshot suffix parameters b = (.ok token, b')) (keeps : grows.kept snapshot = some key) :
    grows.holds b' sequenceId = .intact ⟨key ++ suffix.tokenIds, token.tokenId⟩ := by
  obtain ⟨-, outputs, nextTokenLogits, restored, rfl, answers, held⟩ := resumePrefix_ok run
  exact holds_stored held (columns_chunk answers keeps)

theorem kept_snapshotPrefix {snapshot : PrefixSnapshot rt} {contents : Contents}
    (run : snapshotPrefix sequenceId b = (.ok snapshot, b')) (held : grows.holds b sequenceId = .intact contents) :
    grows.kept snapshot = some contents.cached := by
  obtain ⟨sequence, found, cache, mask, position⟩ := snapshotPrefix_ok run
  rw [holds_entry found] at held
  rw [kept, cache, mask, position]
  exact (columns_of_intact held).1

theorem holds_decode {request : DecodeRequest} {contents : Contents} (run : decode request b = (.ok token, b'))
    (held : grows.holds b request.sequenceId = .intact contents) :
    grows.holds b' request.sequenceId = .intact ⟨contents.cached ++ [contents.next], token.tokenId⟩ := by
  obtain ⟨sequence, outputs, found, answers, stored⟩ := decode_ok run
  rw [holds_entry found] at held
  obtain ⟨columns, last⟩ := columns_of_intact held
  obtain ⟨row, isRow, masked, position, cached⟩ := columns_eq_some columns
  refine holds_stored stored ?_
  rw [cached, ← last]
  exact @columns_appended rt grows _ _ _ [sequence.lastTokenId] row (callRow answers isRow rfl) masked (by rw [position]; rfl)

section Batches

/-- The parts of a split cache have one row each. -/
theorem split_row {cache part : rt.Cache} {row : List TokenId} {n i : Nat} (size : (grows.rows cache).length = n)
    (isRow : (grows.rows cache)[i]? = some row) (isPart : (rt.batchSplit cache n)[i]? = some part) :
    grows.rows part = [row] := by
  have parts : ((rt.batchSplit cache (grows.rows cache).length).map grows.rows)[i]? = _ :=
    congrArg (·[i]?) (grows.batchSplit cache)
  rw [size, List.getElem?_map, List.getElem?_map, isPart, isRow] at parts
  exact Option.some.inj parts

theorem holds_prefillBatch {requests : List PrefillRequest} {outcome : BatchTokenResult}
    (run : prefillBatch requests b = (.ok outcome, b')) (distinct : (requests.map PrefillRequest.sequenceId).Nodup)
    {request : PrefillRequest} (member : request ∈ requests) :
    ∃ token, outcome.tokens.get? request.sequenceId = some token ∧
      grows.holds b' request.sequenceId = .intact ⟨request.prompt.tokenIds, token.tokenId⟩ := by
  obtain ⟨i, isRow⟩ := List.getElem?_of_mem member
  obtain ⟨padId, outputs, caches, answers, parts, sizes, rows⟩ := prefillBatch_ok distinct run isRow
  have filled : grows.rows outputs.pastKeyValues = (prefillBatchCall rt padId requests).inputIds :=
    grows.callEmpty answers grows.dynamicCache
  have here : (grows.rows outputs.pastKeyValues)[i]? =
      some (List.replicate (padding requests request) padId ++ request.prompt.tokenIds) := by
    rw [filled, prefillBatchCall, List.getElem?_map, isRow]
    rfl
  have count : (grows.rows outputs.pastKeyValues).length = requests.length := by
    rw [filled, prefillBatchCall, List.length_map]
  have inside : i < requests.length := (List.getElem?_eq_some_iff.mp isRow).1
  obtain ⟨cache, isPart⟩ : ∃ cache, caches[i]? = some cache :=
    ⟨_, List.getElem?_eq_getElem (sizes ▸ inside)⟩
  obtain ⟨token, logits, found, held⟩ := rows cache isPart
  have part : grows.rows cache = [List.replicate (padding requests request) padId ++ request.prompt.tokenIds] := by
    rcases parts with rfl | ⟨single, rfl⟩
    · exact split_row count here isPart
    · obtain rfl : i = 0 := by omega
      cases isPart
      obtain ⟨only, isOnly⟩ := List.length_eq_one_iff.mp (count.trans single)
      rw [isOnly] at here ⊢
      cases here
      rfl
  refine ⟨token, found, holds_stored held ?_⟩
  have wide := padding_add member
  have positive := TokenizedPrompt.length_pos request.prompt
  have columns := @columns_appended rt grows cache (List.replicate (padding requests request) 0)
    (nextPosition (List.range (width requests))) request.prompt.tokenIds (List.replicate (padding requests request) padId)
    part (by rw [List.length_replicate, List.length_replicate]) (by
      rw [List.range_eq_range', nextPosition_range (by omega), List.length_replicate, wide, Nat.zero_add])
  rw [unmask_zeros, List.nil_append] at columns
  exact columns

/-- The only row of a cache. -/
def firstRow (grows : GrowingCaches rt) (cache : rt.Cache) : List TokenId := (grows.rows cache).headD []

theorem flatMap_singles {caches : List rt.Cache} (singles : ∀ cache ∈ caches, grows.rows cache = [firstRow grows cache]) :
    caches.flatMap grows.rows = caches.map (firstRow grows) := by
  induction caches with
  | nil => rfl
  | cons cache caches ih =>
    rw [List.flatMap_cons, List.map_cons, singles cache List.mem_cons_self,
      ih fun other member => singles other (List.mem_cons_of_mem _ member)]
    rfl

/-- Each row of a batched decode gets the last token of its sequence behind it. -/
theorem rows_decodeBatch {sequences : List (SequenceCache rt)} {outputs : ModelOutputs rt.Cache rt.Logits}
    (answers : Answers rt (decodeBatchCall sequences) outputs)
    (lengths : ∀ first ∈ sequences, ∀ second ∈ sequences, rt.cacheLength first.cache = rt.cacheLength second.cache)
    (singles : ∀ sequence ∈ sequences, grows.rows sequence.cache = [firstRow grows sequence.cache]) :
    grows.rows outputs.pastKeyValues =
      sequences.map fun sequence => firstRow grows sequence.cache ++ [sequence.lastTokenId] := by
  have joined : grows.rows (decodeBatchCall sequences).pastKeyValues =
      (sequences.map SequenceCache.cache).map (firstRow grows) := by
    refine (grows.fromBatchSplits _ fun first isFirst second isSecond => ?_).trans (flatMap_singles fun cache listed => ?_)
    · obtain ⟨one, inFirst, rfl⟩ := List.mem_map.mp isFirst
      obtain ⟨two, inSecond, rfl⟩ := List.mem_map.mp isSecond
      exact lengths one inFirst two inSecond
    · obtain ⟨sequence, member, rfl⟩ := List.mem_map.mp listed
      exact singles sequence member
  have inputs : (decodeBatchCall sequences).inputIds = sequences.map fun sequence => [sequence.lastTokenId] := rfl
  rw [grows.callModel answers (by rw [joined, inputs]; simp only [List.length_map]), joined, inputs, List.map_map,
    List.zipWith_map, List.zipWith_self]
  rfl

theorem holds_decodeBatch {requests : List DecodeRequest} {outcome : BatchTokenResult}
    (run : decodeBatch requests b = (.ok outcome, b')) (distinct : (requests.map DecodeRequest.sequenceId).Nodup)
    (intact : ∀ request ∈ requests, ∃ contents, grows.holds b request.sequenceId = .intact contents)
    {request : DecodeRequest} (member : request ∈ requests) :
    ∃ token, outcome.tokens.get? request.sequenceId = some token ∧
      ∀ contents, grows.holds b request.sequenceId = .intact contents →
        grows.holds b' request.sequenceId = .intact ⟨contents.cached ++ [contents.next], token.tokenId⟩ := by
  by_cases several : 2 ≤ requests.length
  · obtain ⟨sequences, outputs, sizes, entries, lengths, answers, parts, rows⟩ := decodeBatch_ok distinct several run
    obtain ⟨i, isRow⟩ := List.getElem?_of_mem member
    have inside : i < requests.length := (List.getElem?_eq_some_iff.mp isRow).1
    obtain ⟨sequence, isEntry⟩ : ∃ sequence, sequences[i]? = some sequence :=
      ⟨_, List.getElem?_eq_getElem (sizes ▸ inside)⟩
    obtain ⟨cache, isPart⟩ : ∃ cache, (rt.batchSplit outputs.pastKeyValues requests.length)[i]? = some cache :=
      ⟨_, List.getElem?_eq_getElem (parts ▸ inside)⟩
    have single : ∀ other ∈ sequences, grows.rows other.cache = [firstRow grows other.cache] := by
      intro other listed
      obtain ⟨j, isOther⟩ := List.getElem?_of_mem listed
      have below : j < requests.length := sizes ▸ (List.getElem?_eq_some_iff.mp isOther).1
      have held := entries j _ other (List.getElem?_eq_getElem below) isOther
      obtain ⟨contents, holds⟩ := intact _ (List.getElem_mem below)
      rw [holds_entry held] at holds
      obtain ⟨row, isSingle, -⟩ := columns_eq_some (columns_of_intact holds).1
      rw [firstRow, isSingle]
      rfl
    have filled := rows_decodeBatch answers lengths single
    have here : (grows.rows outputs.pastKeyValues)[i]? = some (firstRow grows sequence.cache ++ [sequence.lastTokenId]) := by
      rw [filled, List.getElem?_map, isEntry]
      rfl
    have count : (grows.rows outputs.pastKeyValues).length = requests.length := by
      rw [filled, List.length_map, sizes]
    have part := split_row count here isPart
    obtain ⟨token, found, stored⟩ := rows i request sequence cache isRow isEntry isPart
    refine ⟨token, found, fun contents held => ?_⟩
    rw [holds_entry (entries i request sequence isRow isEntry)] at held
    obtain ⟨columns, last⟩ := columns_of_intact held
    obtain ⟨row, isSingle, masked, position, cached⟩ := columns_eq_some columns
    rw [firstRow, isSingle] at part
    refine holds_stored stored ?_
    rw [cached, ← last]
    exact @columns_appended rt grows _ _ _ [sequence.lastTokenId] row part masked (by rw [position]; rfl)
  · match requests, several with
    | [], _ => cases member
    | [only], _ =>
      cases List.mem_singleton.mp member
      obtain ⟨token, b₁, decodes, ends⟩ := bind_eq_ok run
      cases ends
      exact ⟨token, Dict.get?_insert_self, fun contents held => holds_decode decodes held⟩
    | _ :: _ :: _, several => exact absurd (Nat.le_add_left 2 _) several

end Batches

section Machine

/-- The backend's methods by the names that the engine calls them. -/
def respond : (method : BackendMethod (PrefixSnapshot rt)) → Method rt method.Answer
  | .tokenize prompt => tokenize prompt
  | .prefill request => prefill request
  | .prefillBatch requests => prefillBatch requests
  | .prefillChunk sequenceId prompt parameters final => prefillChunk sequenceId prompt parameters final
  | .restorePrefix sequenceId snapshot parameters => restorePrefix sequenceId snapshot parameters
  | .resumePrefix sequenceId snapshot suffix parameters => resumePrefix sequenceId snapshot suffix parameters
  | .snapshotPrefix sequenceId => snapshotPrefix sequenceId
  | .decode request => decode request
  | .decodeBatch requests => decodeBatch requests
  | .eosTokenIds => eosTokenIds
  | .releaseSequence sequenceId => releaseSequence sequenceId
  | .shutdown => shutdown

theorem keeps_tokenize {prompt : String} : (tokenize prompt : Method rt TokenizedPrompt).Keeps books := by
  refine keeps_loadModel.bind fun _ => (keeps_read _).bind fun tokenizer => ?_
  cases tokenizer with
  | none => exact keeps_raise _
  | some tokenizer => exact fun _ => rfl

theorem keeps_eosTokenIds : (eosTokenIds : Method rt (List TokenId)).Keeps books := by
  refine keeps_loadModel.bind fun _ => (keeps_read _).bind fun available => ?_
  split
  · exact keeps_read _
  · exact keeps_raise _

theorem keeps_snapshotPrefix : (snapshotPrefix sequenceId : Method rt (PrefixSnapshot rt)).Keeps books := by
  refine (keeps_read _).bind fun found => ?_
  cases found with
  | none => exact keeps_raise _
  | some sequence =>
    dsimp only
    cases sequence.nextTokenLogits with
    | none => exact keeps_raise _
    | some logits => exact keeps_pure _

/-- A method leaves the sequences alone that it does not touch. -/
theorem keeps_respond {method : BackendMethod (PrefixSnapshot rt)} (lives : method ≠ .shutdown)
    (outside : id ∉ method.touches) : (respond method).Keeps (entry id) := by
  have other : ∀ {name : String}, id ∉ [name] → id ≠ name := fun outside same => outside (List.mem_singleton.mpr same)
  cases method with
  | tokenize => exact keeps_entry keeps_tokenize
  | prefill => exact keeps_prefill (other outside)
  | prefillBatch => exact keeps_prefillBatch outside
  | prefillChunk => exact keeps_prefillChunk (other outside)
  | restorePrefix => exact keeps_restorePrefix (other outside)
  | resumePrefix => exact keeps_resumePrefix (other outside)
  | snapshotPrefix => exact keeps_entry keeps_snapshotPrefix
  | decode => exact keeps_decode (other outside)
  | decodeBatch => exact keeps_decodeBatch outside
  | eosTokenIds => exact keeps_entry keeps_eosTokenIds
  | releaseSequence => exact fun b => Dict.get?_erase_of_ne (other outside)
  | shutdown => exact absurd rfl lives

theorem decode_absent {request : DecodeRequest} (none : entry request.sequenceId b = none) :
    entry request.sequenceId (decode request b).2 = Option.none := by
  unfold decode
  rcases bind_cases requireActive (fun _ => _) b with ⟨_, middle, active, rest⟩ | ⟨error, middle, active, rest⟩
  · have kept : middle.sequences.get? request.sequenceId = Option.none :=
      (ran (keeps_entry keeps_requireActive) active).trans none
    rw [rest, bind_ok run_read, kept]
    exact kept
  · rw [rest]
    exact (ran (keeps_entry keeps_requireActive) active).trans none

theorem lookup_absent {requests : List DecodeRequest} {request : DecodeRequest} (member : request ∈ requests)
    (none : entry request.sequenceId b = none) : ∃ error, b.lookup requests = .error error := by
  induction requests with
  | nil => cases member
  | cons first rest ih =>
    rw [lookup]
    cases found : b.sequences.get? first.sequenceId with
    | none => exact ⟨_, rfl⟩
    | some sequence =>
      rcases List.mem_cons.mp member with rfl | later
      · cases found.symm.trans none
      · obtain ⟨error, stopped⟩ := ih later
        rw [stopped]
        exact ⟨error, rfl⟩

/-- A decode makes no sequences. -/
theorem decodeBatch_absent {requests : List DecodeRequest} (none : entry id b = none) :
    entry id (decodeBatch requests b).2 = Option.none := by
  by_cases listed : id ∈ requests.map DecodeRequest.sequenceId
  · obtain ⟨request, member, rfl⟩ := List.mem_map.mp listed
    match requests with
    | [] => cases member
    | [only] =>
      cases List.mem_singleton.mp member
      exact (bind_reading (decode request) (fun _ => keeps_pure _) b).trans (decode_absent none)
    | first :: second :: rest =>
      obtain ⟨error, stopped⟩ := lookup_absent member none
      have looks : (fun b => (b.lookup (first :: second :: rest), b) : Method rt (List (SequenceCache rt))) b = (.error error, b) :=
        congrArg (·, b) stopped
      have stops : decodeBatch (first :: second :: rest) b = (.error error, b) := bind_error looks
      rw [stops]
      exact none
  · exact (keeps_decodeBatch listed b).trans none

/-- The backend over a runtime, as it is made for the engine. -/
def machine (rt : TokenRuntime) (world : rt.World) : BackendMachine (PrefixSnapshot rt) where
  State := HuggingFaceTokenBackend rt
  start := ⟨.empty, false, world, []⟩
  held b id := b.sequences.contains id
  respond := respond
  startEmpty _ := rfl
  created method b id later := by
    by_cases lives : method = .shutdown
    · cases lives
      cases later
    by_cases touched : id ∈ method.touches
    · have before : (b.sequences.contains id = false → (respond method b).2.sequences.contains id = false) →
          b.sequences.contains id = true := by
        intro absent
        by_contra none
        cases later.symm.trans (absent (eq_false_of_ne_true none))
      cases method with
      | decode request =>
        refine Or.inl (before fun none => Dict.contains_eq_false_iff.mpr ?_)
        cases List.mem_singleton.mp touched
        exact decode_absent (Dict.contains_eq_false_iff.mp none)
      | decodeBatch requests =>
        refine Or.inl (before fun none => Dict.contains_eq_false_iff.mpr ?_)
        exact decodeBatch_absent (Dict.contains_eq_false_iff.mp none)
      | releaseSequence other =>
        refine Or.inl (before fun _ => Dict.contains_eq_false_iff.mpr ?_)
        cases List.mem_singleton.mp touched
        exact Dict.get?_erase_self
      | _ => exact Or.inr touched
    · have kept : (respond method b).2.sequences.get? id = b.sequences.get? id := keeps_respond lives touched b
      rw [Dict.contains, kept] at later
      exact Or.inl later
  released id b _ := Dict.contains_eq_false_iff.mpr Dict.get?_erase_self

/-- The backend keeps the tokens of its sequences as the engine expects it. -/
def histories (grows : GrowingCaches rt) (world : rt.World) : (machine rt world).backend.KeepsTokens where
  holds := grows.holds
  kept := grows.kept
  unheld unheld := holds_of_none (Dict.contains_eq_false_iff.mp (eq_false_of_ne_true unheld))
  frame run lives outside := holds_congr (ran (keeps_respond lives outside) run)
  prefill run := holds_prefill run
  prefillBatch run distinct _ member _ := holds_prefillBatch run distinct member
  prefillChunk run begun := holds_prefillChunk run begun
  restorePrefix run keeps := holds_restorePrefix run keeps
  resumePrefix run keeps := holds_resumePrefix run keeps
  snapshotPrefix run held := kept_snapshotPrefix run held
  decode run held := holds_decode run held
  decodeBatch run distinct intact _ member _ := holds_decodeBatch run distinct intact member

end Machine

section Runs

variable {world : rt.World} {setup : EngineSetup} {c : Configuration (machine rt world).backend} {r : Ref}

/-- A cache of one row whose unmasked tokens these are, with a mask for every
column and the next position behind them. -/
def Carries (grows : GrowingCaches rt) (cache : rt.Cache) (mask position : List Nat) (tokens : List TokenId) : Prop :=
  ∃ row, grows.rows cache = [row] ∧ mask.length = row.length ∧ position = [row.length] ∧ unmask mask row = tokens

theorem carries_of_columns {cache : rt.Cache} {mask position : List Nat} {tokens : List TokenId}
    (held : grows.columns cache mask position = some tokens) : Carries grows cache mask position tokens := by
  obtain ⟨row, isRow, masked, next, cached⟩ := columns_eq_some held
  exact ⟨row, isRow, masked, next, cached.symm⟩

theorem carries_of_intact {contents : Contents} (held : grows.holds b id = .intact contents) :
    ∃ sequence, b.sequences.get? id = some sequence ∧ sequence.lastTokenId = contents.next ∧
      Carries grows sequence.cache sequence.attentionMask sequence.cachePosition contents.cached := by
  obtain ⟨sequence, found, holds⟩ := entry_of_intact held
  obtain ⟨columns, last⟩ := columns_of_intact holds
  exact ⟨sequence, found, last, carries_of_columns columns⟩

theorem absent_iff : grows.holds b id = .absent ↔ b.sequences.get? id = none := by
  refine ⟨fun absent => ?_, holds_of_none⟩
  cases found : b.sequences.get? id with
  | none => rfl
  | some sequence =>
    rw [holds_entry found, holding] at absent
    cases columns : grows.columns sequence.cache sequence.attentionMask sequence.cachePosition with
    | none =>
      rw [columns] at absent
      cases absent
    | some cached =>
      rw [columns] at absent
      cases absent

/-- Whatever clients do, between two turns of the scheduler the backend's cache for
a generating sequence carries its prompt and its tokens but the last, which is
the next input; for a sequence in prefill it carries the chunks put in, and a
cached snapshot carries its key. -/
theorem sequence_caches_follow_tokens (grows : GrowingCaches rt) (reachable : c.Reachable (machine rt world).backend setup)
    (between : c.scheduler = .between) (active : c.shared.ActiveRef r) :
    (∀ earlier last, (c.shared.engine.sequences r).state.generatedTokenIds = earlier ++ [last] →
      ∃ sequence : SequenceCache rt, entry (c.shared.engine.requestId r) c.shared.backendState = some sequence ∧
        sequence.lastTokenId = last ∧ Carries grows sequence.cache sequence.attentionMask sequence.cachePosition
          ((c.shared.engine.sequences r).state.promptTokenIds ++ earlier)) ∧
    ((c.shared.engine.sequences r).state.generatedTokenIds = [] → 0 < (c.shared.engine.sequences r).prefillOffset →
      ∃ sequence : SequenceCache rt, entry (c.shared.engine.requestId r) c.shared.backendState = some sequence ∧
        Carries grows sequence.cache sequence.attentionMask sequence.cachePosition
          ((c.shared.engine.sequences r).state.promptTokenIds.take (c.shared.engine.sequences r).prefillOffset)) ∧
    ((c.shared.engine.sequences r).state.generatedTokenIds = [] → (c.shared.engine.sequences r).prefillOffset = 0 →
      entry (c.shared.engine.requestId r) c.shared.backendState = none) ∧
    ∀ key entry, c.shared.engine.prefixCache.entries.get? key = some entry →
      Carries grows entry.backendState.cache entry.backendState.attentionMask entry.backendState.cachePosition key := by
  obtain ⟨cached, absent, begun, whole⟩ := Configuration.contents_follow_tokens (histories grows world) reachable between active
  refine ⟨fun earlier last generated => ?_, fun none some => ?_, fun none zero => absent_iff.mp (absent none zero),
    fun key entry found => carries_of_columns (cached key entry found)⟩
  · exact carries_of_intact (whole earlier last generated)
  · obtain ⟨next, holds⟩ := begun none some
    obtain ⟨sequence, found, -, carries⟩ := carries_of_intact holds
    exact ⟨sequence, found, carries⟩

namespace Rows

/-- Rows of tokens with further ones behind them. -/
def extend (rows inputIds : List (List TokenId)) : List (List TokenId) :=
  if rows = [] then inputIds else List.zipWith (· ++ ·) rows inputIds

theorem extend_rows {rows inputIds : List (List TokenId)} (sizes : rows.length = inputIds.length) :
    extend rows inputIds = List.zipWith (· ++ ·) rows inputIds := by
  unfold extend
  split
  · rename_i empty
    rw [empty] at sizes ⊢
    rw [List.length_eq_zero_iff.mp sizes.symm]
    rfl
  · rfl

/-- A runtime whose caches are the tokens themselves. -/
def runtime : TokenRuntime where
  Cache := List (List TokenId)
  Logits := Unit
  World := Unit
  dynamicCache := []
  cacheLength cache := (cache.headD []).length
  fromBatchSplits caches := caches.flatten
  batchSplit cache _ := cache.map fun row => [row]
  loadModel := pure ()
  modelLoaded _ := true
  tokenizer _ := some ⟨some 0, fun prompt => if prompt = "short" then [1] else [1, 2, 3], fun _ => "five"⟩
  eosTokenIds _ := [0]
  callModel input world := (.ok ⟨fun _ => (), extend input.pastKeyValues input.inputIds⟩, world)
  select _ _ := pure 5
  unload world := world

theorem answered {input : ModelCall runtime.Cache} {outputs : ModelOutputs runtime.Cache runtime.Logits}
    (answers : Answers runtime input outputs) : outputs.pastKeyValues = extend input.pastKeyValues input.inputIds := by
  obtain ⟨world, world', run⟩ := answers
  cases run
  rfl

def caches : GrowingCaches runtime where
  rows cache := cache
  dynamicCache := rfl
  cacheLength isRow := congrArg (fun rows : List (List TokenId) => (rows.headD []).length) isRow
  callEmpty answers empty := (answered answers).trans (if_pos empty)
  callModel answers sizes := (answered answers).trans (extend_rows sizes)
  batchSplit _ := List.map_id _
  fromBatchSplits _ _ := List.flatten_eq_flatMap

def start : Configuration (machine runtime ()).backend := Configuration.initial _ Configuration.Sample.oneToken

def sampling : SamplingParameters := .unstopped 2 Nat.two_pos

/-- Three chunks, a snapshot and the first token of a long prompt. -/
def longPrompt : List Move :=
  [.reserve "first" "long" sampling 10 0, .stream "first", .schedule 0, .answer, .schedule 0, .answer, .schedule 0,
    .answer, .schedule 0, .schedule 0, .answer, .schedule 0, .schedule 0, .answer, .schedule 0, .answer, .schedule 0]

def generates (c : Configuration (machine runtime ()).backend) : Bool :=
  c.scheduler matches .between ∧ c.shared.engine.active.get? (c.shared.engine.requestId 0) = some 0 ∧
    (c.shared.engine.sequences 0).state.generatedTokenIds = [5] ∧
    (c.shared.engine.sequences 0).state.promptTokenIds = [1, 2, 3]

theorem longPrompt_generates : (((machine runtime ()).drives start longPrompt).any generates) = true := by
  decide +kernel

end Rows

open Rows in
theorem sequence_caches_follow_tokens_sample : ∃ c : Configuration (machine runtime ()).backend,
    c.Reachable _ Configuration.Sample.oneToken ∧ ∃ sequence : SequenceCache runtime,
      entry (c.shared.engine.requestId 0) c.shared.backendState = some sequence ∧ sequence.lastTokenId = 5 ∧
        Carries caches sequence.cache sequence.attentionMask sequence.cachePosition [1, 2, 3] := by
  obtain ⟨c, reachable, seen⟩ := (machine runtime ()).script_reaches longPrompt_generates
  obtain ⟨between, active, generated, prompt⟩ := of_decide_eq_true seen
  have idle : c.scheduler = .between := by
    generalize c.scheduler = scheduler at between
    cases scheduler with
    | between => rfl
    | _ => cases between
  have held := (sequence_caches_follow_tokens caches reachable idle active).1 [] 5 generated
  rw [prompt, List.append_nil] at held
  exact ⟨c, reachable, held⟩

/-- A method that is for new sequences is refused for one that is held. -/
theorem refuses_held {α : Type} {rest : Unit → Method rt α} (held : b.sequences.contains sequenceId = true) :
    ∃ error, (error = valueError s!"sequence already exists: {sequenceId}" ∨
      error = runtimeError "inference backend is shut down") ∧
      (requireActive >>= fun _ => requireAbsent sequenceId >>= rest) b = (.error error, b) := by
  have active : requireActive b = (if b.stopped = true then
      (raise (runtimeError "inference backend is shut down") : Method rt Unit) else pure ()) b := rfl
  have absent : requireAbsent sequenceId b = (if b.sequences.contains sequenceId = true then
      (raise (valueError s!"sequence already exists: {sequenceId}") : Method rt Unit) else pure ()) b := rfl
  rw [if_pos held] at absent
  by_cases stopped : b.stopped = true
  · rw [if_pos stopped] at active
    exact ⟨_, Or.inr rfl, bind_error active⟩
  · rw [if_neg stopped] at active
    exact ⟨_, Or.inl rfl, (bind_ok active).trans (bind_error absent)⟩

namespace Rows

/-- A second request of the same prompt comes when the first has put in one chunk. -/
def twins : List Move :=
  [.reserve "first" "long" sampling 10 0, .stream "first", .schedule 0, .answer, .schedule 0, .answer, .schedule 0,
    .answer, .schedule 0, .reserve "second" "long" sampling 10 0, .schedule 0, .answer, .schedule 0, .answer,
    .schedule 0, .answer, .schedule 0, .schedule 0, .answer, .schedule 0, .answer, .schedule 0, .answer, .schedule 0,
    .schedule 0]

/-- The sequences that the scheduler waits for to have a prefix restored. -/
def restoring (c : Configuration (machine runtime ()).backend) : List Ref :=
  match c.scheduler with
  | .waiting (.call (.direct (.restorePrefix ..)) sequences) _ => sequences
  | _ => []

theorem twins_restore : (((machine runtime ()).drives start twins).any fun c =>
    restoring c = [1] ∧ (c.shared.engine.sequences 1).prefillOffset = 2) = true := by
  decide +kernel

theorem waits_of_restoring {c : Configuration (machine runtime ()).backend} (restores : restoring c = [1]) :
    ∃ id snapshot parameters k, c.scheduler = .waiting (.call (.direct (.restorePrefix id snapshot parameters)) [1]) k := by
  unfold restoring at restores
  split at restores
  · rename_i waiting
    subst restores
    exact ⟨_, _, _, _, waiting⟩
  · cases restores

end Rows

end Runs

end HuggingFaceTokenBackend

end ServingPlatform
