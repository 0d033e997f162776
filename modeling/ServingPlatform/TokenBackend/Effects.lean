import ServingPlatform.TokenBackend.Backend

namespace ServingPlatform.HuggingFaceTokenBackend

open Attempt

variable {rt : TokenRuntime} {b b' : HuggingFaceTokenBackend rt} {sequenceId : String} {message : String}

/-- What a method may leave behind: the sequences, and the calls of the model. -/
def books (b : HuggingFaceTokenBackend rt) : Dict String (SequenceCache rt) × List (ModelCall rt.Cache) :=
  (b.sequences, b.calls)

/-- The model has answered a call so. -/
def Answers (rt : TokenRuntime) (input : ModelCall rt.Cache) (outputs : ModelOutputs rt.Cache rt.Logits) : Prop :=
  ∃ world world', rt.callModel input world = (.ok outputs, world')

theorem keeps_onWorld {α : Type} (m : Attempt Raised rt.World α) : (onWorld m : Method rt α).Keeps books := fun _ => rfl

theorem keeps_requireActive : (requireActive : Method rt Unit).Keeps books := by
  refine (keeps_read _).bind fun stopped => ?_
  split
  · exact keeps_raise _
  · exact keeps_pure _

theorem keeps_loadModel : (loadModel : Method rt Unit).Keeps books := keeps_requireActive.bind fun _ => keeps_onWorld _

theorem keeps_requireModel : (requireModel message : Method rt Unit).Keeps books := by
  refine (keeps_read _).bind fun loaded => ?_
  split
  · exact keeps_raise _
  · exact keeps_pure _

theorem keeps_requireAbsent : (requireAbsent sequenceId : Method rt Unit).Keeps books := by
  refine (keeps_read _).bind fun known => ?_
  split
  · exact keeps_raise _
  · exact keeps_pure _

theorem keeps_token {logits : rt.Logits} {parameters : SamplingParameters} :
    (token logits parameters : Method rt TokenId).Keeps books := keeps_onWorld _

theorem keeps_generated {tokenId : TokenId} {index : Nat} {cache : rt.Cache} :
    (generated tokenId index cache : Method rt GeneratedToken).Keeps books := by
  refine (keeps_read _).bind fun tokenizer => ?_
  cases tokenizer with
  | none => exact keeps_raise _
  | some tokenizer => exact keeps_pure _

theorem requireAbsent_post {α : Type} {rest : Unit → Method rt α} {Q : Except Raised α × HuggingFaceTokenBackend rt → Prop}
    (next : b.sequences.get? sequenceId = none → Q (rest () b)) (raised : ∀ e, Q (.error e, b)) :
    Q ((requireAbsent sequenceId >>= rest) b) := by
  have decided : requireAbsent sequenceId b = (if b.sequences.contains sequenceId = true then
      (raise (valueError s!"sequence already exists: {sequenceId}") : Method rt Unit) else pure ()) b := rfl
  cases known : b.sequences.contains sequenceId with
  | true =>
    rw [if_pos known] at decided
    rw [bind_error decided]
    exact raised _
  | false =>
    rw [if_neg (by simp [known])] at decided
    rw [bind_ok decided]
    exact next (Dict.contains_eq_false_iff.mp known)

/-- The model is called once; what it answers, if it does not raise, is an answer to the call. -/
theorem call_post {α : Type} {input : ModelCall rt.Cache}
    {left : rt.Cache → HuggingFaceTokenBackend rt → HuggingFaceTokenBackend rt}
    {rest : ModelOutputs rt.Cache rt.Logits → Method rt α} {Q : Except Raised α × HuggingFaceTokenBackend rt → Prop}
    (next : ∀ outputs world, Answers rt input outputs → Q (rest outputs { b with world, calls := input :: b.calls }))
    (raised : ∀ e cache world, Q (.error e, left cache { b with world, calls := input :: b.calls })) :
    Q ((call input left >>= rest) b) := by
  rcases run : rt.callModel input b.world with ⟨⟨e, cache⟩ | outputs, world⟩
  · have stopped : call input left b = (.error e, left cache { b with world, calls := input :: b.calls }) := by
      unfold call
      rw [run]
    rw [bind_error stopped]
    exact raised e cache world
  · have answered : call input left b = (.ok outputs, { b with world, calls := input :: b.calls }) := by
      unfold call
      rw [run]
    rw [bind_ok answered]
    exact next outputs world ⟨b.world, world, run⟩

/-- What a prefill, alone or in a batch, stores for a prompt: `shift` columns stand before it. -/
def Prefilled (shift : Nat) (prompt : TokenizedPrompt) (cache : rt.Cache) (sequence : SequenceCache rt) : Prop :=
  ∃ tokenId logits, sequence = {
    cache
    attentionMask := List.replicate shift 0 ++ List.replicate prompt.tokenIds.length 1
    cachePosition := [shift + prompt.tokenIds.length]
    lastTokenId := tokenId
    nextTokenLogits := some logits }

theorem nextPosition_range {n : Nat} (positive : 0 < n) (start : Nat) : nextPosition (List.range' start n) = [start + n] := by
  obtain ⟨n, rfl⟩ : ∃ m, n = m + 1 := ⟨n - 1, by omega⟩
  unfold nextPosition
  rw [List.length_range', Nat.add_sub_cancel, List.range'_1_concat, List.drop_left' (List.length_range' ..)]
  rfl

theorem TokenizedPrompt.length_pos (prompt : TokenizedPrompt) : 0 < prompt.tokenIds.length :=
  List.length_pos_of_ne_nil prompt.nonempty

/-- What a prefill may leave: nothing, a call that came to nothing, or a new sequence. -/
inductive PrefillEffect (request : PrefillRequest) (b : HuggingFaceTokenBackend rt) :
    Except Raised GeneratedToken × HuggingFaceTokenBackend rt → Prop
  | nothing {e : Raised} {b' : HuggingFaceTokenBackend rt} (same : books b' = books b) : PrefillEffect request b (.error e, b')
  | called {e : Raised} {b' : HuggingFaceTokenBackend rt} (sequences : b'.sequences = b.sequences)
      (calls : b'.calls = prefillCall rt request.prompt :: b.calls) : PrefillEffect request b (.error e, b')
  | stored {result : Except Raised GeneratedToken} {b' : HuggingFaceTokenBackend rt}
      {outputs : ModelOutputs rt.Cache rt.Logits} {sequence : SequenceCache rt} (fresh : b.sequences.get? request.sequenceId = none)
      (calls : b'.calls = prefillCall rt request.prompt :: b.calls)
      (answers : Answers rt (prefillCall rt request.prompt) outputs)
      (prefilled : Prefilled 0 request.prompt outputs.pastKeyValues sequence)
      (sequences : b'.sequences = b.sequences.insert request.sequenceId sequence) :
      PrefillEffect request b (result, b')

theorem prefill_effect (request : PrefillRequest) (b : HuggingFaceTokenBackend rt) :
    PrefillEffect request b (prefill request b) := by
  unfold prefill
  refine keeps_requireActive.bind_post (fun _ b₁ same₁ => ?_) fun e b₁ same₁ => .nothing same₁
  refine requireAbsent_post (fun fresh => ?_) fun e => .nothing same₁
  refine keeps_loadModel.bind_post (fun _ b₂ same₂ => ?_) fun e b₂ same₂ => .nothing (same₂.trans same₁)
  have before₂ := same₂.trans same₁
  refine keeps_requireModel.bind_post (fun _ b₃ same₃ => ?_) fun e b₃ same₃ => .nothing (same₃.trans before₂)
  have sequences : b₃.sequences = b.sequences := congrArg Prod.fst (same₃.trans before₂)
  have calls : b₃.calls = b.calls := congrArg Prod.snd (same₃.trans before₂)
  refine call_post (fun outputs world answers => ?_) fun e cache world => .called sequences (congrArg _ calls)
  refine keeps_token.bind_post (fun tokenId b₄ same₄ => ?_) fun e b₄ same₄ =>
    .called ((congrArg Prod.fst same₄).trans sequences) ((congrArg Prod.snd same₄).trans (congrArg _ calls))
  have absent : b.sequences.get? request.sequenceId = none := by
    rw [← show b₁.sequences = b.sequences from congrArg Prod.fst same₁]
    exact fresh
  have stored : Prefilled 0 request.prompt outputs.pastKeyValues {
      cache := outputs.pastKeyValues
      attentionMask := List.replicate request.prompt.tokenIds.length 1
      cachePosition := nextPosition (List.range request.prompt.tokenIds.length)
      lastTokenId := tokenId
      nextTokenLogits := some (outputs.logits 0) } := by
    refine ⟨tokenId, outputs.logits 0, ?_⟩
    rw [List.range_eq_range', nextPosition_range (TokenizedPrompt.length_pos _)]
    rfl
  rw [bind_ok run_update]
  refine keeps_generated.post fun result b' same => ?_
  refine .stored absent ((congrArg Prod.snd same).trans ((congrArg Prod.snd same₄).trans (congrArg _ calls))) answers stored ?_
  rw [← sequences, ← show b₄.sequences = b₃.sequences from congrArg Prod.fst same₄]
  exact congrArg Prod.fst same

section Batch

variable {requests rest : List PrefillRequest} {request : PrefillRequest}

theorem le_width (member : request ∈ requests) : request.prompt.tokenIds.length ≤ width requests := by
  unfold width
  induction requests with
  | nil => cases member
  | cons first rest ih =>
    rw [List.map_cons, List.foldr_cons]
    rcases List.mem_cons.mp member with rfl | later
    · exact Nat.le_max_left _ _
    · exact Nat.le_trans (ih later) (Nat.le_max_right _ _)

theorem padding_add (member : request ∈ requests) : padding requests request + request.prompt.tokenIds.length = width requests :=
  Nat.sub_add_cancel (le_width member)

theorem prefilled_row (member : request ∈ requests) (cache : rt.Cache) (tokenId : TokenId) (logits : rt.Logits) :
    Prefilled (padding requests request) request.prompt cache {
      cache
      attentionMask := maskRow requests request
      cachePosition := nextPosition (List.range (width requests))
      lastTokenId := tokenId
      nextTokenLogits := some logits } := by
  have wide : 0 < width requests := Nat.lt_of_lt_of_le (TokenizedPrompt.length_pos request.prompt) (le_width member)
  refine ⟨tokenId, logits, ?_⟩
  rw [List.range_eq_range', nextPosition_range wide, Nat.zero_add, padding_add member]
  rfl

/-- What the rows of a batch leave: sequences of these rows beside the old ones, of all rows if nothing is raised. -/
structure RowsStored (requests rest : List PrefillRequest) (caches : List rt.Cache) (b b' : HuggingFaceTokenBackend rt)
    (whole : Prop) : Prop where
  calls : b'.calls = b.calls
  stored : ∀ sequenceId sequence, b'.sequences.get? sequenceId = some sequence →
    b.sequences.get? sequenceId = some sequence ∨ ∃ request ∈ rest, request.sequenceId = sequenceId ∧
      ∃ cache ∈ caches, Prefilled (padding requests request) request.prompt cache sequence
  kept : ∀ sequenceId, b.sequences.contains sequenceId = true → b'.sequences.contains sequenceId = true
  complete : whole → ∀ request ∈ rest, b'.sequences.contains request.sequenceId = true

theorem RowsStored.refl {caches : List rt.Cache} {whole : Prop} (same : books b' = books b)
    (nothing : whole → rest = []) : RowsStored requests rest caches b b' whole where
  calls := congrArg Prod.snd same
  stored := fun sequenceId sequence found => Or.inl (by rw [← show b'.sequences = b.sequences from congrArg Prod.fst same]; exact found)
  kept := fun sequenceId known => by rw [show b'.sequences = b.sequences from congrArg Prod.fst same]; exact known
  complete := fun done request member => by rw [nothing done] at member; cases member

theorem RowsStored.next {b₁ : HuggingFaceTokenBackend rt} {cache : rt.Cache} {caches : List rt.Cache} {whole : Prop}
    {sequence : SequenceCache rt} (calls : b₁.calls = b.calls)
    (sequences : b₁.sequences = b.sequences.insert request.sequenceId sequence)
    (prefilled : Prefilled (padding requests request) request.prompt cache sequence)
    (later : RowsStored requests rest caches b₁ b' whole) :
    RowsStored requests (request :: rest) (cache :: caches) b b' whole where
  calls := later.calls.trans calls
  stored := by
    intro sequenceId other found
    rcases later.stored sequenceId other found with held | ⟨row, member, named, part, split, made⟩
    · rw [sequences, Dict.get?_insert] at held
      split at held
      · rename_i same
        cases held
        exact Or.inr ⟨request, List.mem_cons_self, same.symm, cache, List.mem_cons_self, prefilled⟩
      · exact Or.inl held
    · exact Or.inr ⟨row, List.mem_cons_of_mem _ member, named, part, List.mem_cons_of_mem _ split, made⟩
  kept := by
    intro sequenceId known
    refine later.kept sequenceId ?_
    rw [sequences, Dict.contains, Dict.get?_insert]
    split
    · rfl
    · exact known
  complete := by
    intro done row member
    rcases List.mem_cons.mp member with rfl | member
    · refine later.kept _ ?_
      rw [sequences, Dict.contains, Dict.get?_insert_self]
      rfl
    · exact later.complete done row member

theorem storePrefilled_rows {logits : Nat → rt.Logits} (row : Nat) (caches : List rt.Cache)
    (tokens : Dict String GeneratedToken) (within : ∀ request ∈ rest, request ∈ requests) (b : HuggingFaceTokenBackend rt) :
    RowsStored requests rest caches b (storePrefilled requests logits row rest caches tokens b).2
      (∃ made, (storePrefilled requests logits row rest caches tokens b).1 = .ok made) := by
  induction rest generalizing row caches tokens b with
  | nil => cases caches <;> exact .refl rfl fun _ => rfl
  | cons request rest ih =>
    cases caches with
    | nil =>
      refine .refl rfl ?_
      rintro ⟨made, impossible⟩
      cases impossible
    | cons cache caches =>
      unfold storePrefilled
      refine keeps_token.bind_post
        (Q := fun run => RowsStored requests (request :: rest) (cache :: caches) b run.2 (∃ made, run.1 = .ok made))
        (fun tokenId b₁ same₁ => ?_) fun e b₁ same₁ => .refl same₁ fun ⟨_, impossible⟩ => by cases impossible
      rw [bind_ok run_update]
      have sequences₁ : b₁.sequences = b.sequences := congrArg Prod.fst same₁
      have calls₁ : b₁.calls = b.calls := congrArg Prod.snd same₁
      have made := prefilled_row (within request List.mem_cons_self) cache tokenId (logits row)
      refine keeps_generated.bind_post
        (Q := fun run => RowsStored requests (request :: rest) (cache :: caches) b run.2 (∃ made, run.1 = .ok made))
        (fun made₂ b₂ same₂ => ?_) fun e b₂ same₂ => ?_
      · refine .next ((congrArg Prod.snd same₂).trans calls₁) ?_ made
          (ih (row + 1) caches _ (fun request member => within request (List.mem_cons_of_mem _ member)) b₂)
        rw [← sequences₁]
        exact congrArg Prod.fst same₂
      · have stopped : RowsStored requests rest caches b₂ b₂ (∃ made, (Except.error e : Except Raised (Dict String GeneratedToken)) = .ok made) :=
          .refl rfl fun ⟨_, impossible⟩ => by cases impossible
        refine .next ((congrArg Prod.snd same₂).trans calls₁) ?_ made stopped
        rw [← sequences₁]
        exact congrArg Prod.fst same₂

/-- What a batched prefill may leave: nothing, a call that came to nothing, or
sequences of its rows, each with a part of the cache of the answer. -/
inductive PrefillBatchEffect (requests : List PrefillRequest) (b : HuggingFaceTokenBackend rt) :
    Except Raised BatchTokenResult × HuggingFaceTokenBackend rt → Prop
  | nothing {result : Except Raised BatchTokenResult} {b' : HuggingFaceTokenBackend rt} (same : books b' = books b)
      (empty : (∃ made, result = .ok made) → requests = []) : PrefillBatchEffect requests b (result, b')
  | called {e : Raised} {b' : HuggingFaceTokenBackend rt} {padId : TokenId} (sequences : b'.sequences = b.sequences)
      (calls : b'.calls = prefillBatchCall rt padId requests :: b.calls) : PrefillBatchEffect requests b (.error e, b')
  | stored {result : Except Raised BatchTokenResult} {b₁ b' : HuggingFaceTokenBackend rt} {padId : TokenId}
      {outputs : ModelOutputs rt.Cache rt.Logits} {caches : List rt.Cache}
      (distinct : (requests.map PrefillRequest.sequenceId).Nodup)
      (fresh : ∀ request ∈ requests, b.sequences.get? request.sequenceId = none)
      (sequences : b₁.sequences = b.sequences) (calls : b₁.calls = prefillBatchCall rt padId requests :: b.calls)
      (answers : Answers rt (prefillBatchCall rt padId requests) outputs)
      (parts : caches = rt.batchSplit outputs.pastKeyValues requests.length ∨
        requests.length = 1 ∧ caches = [outputs.pastKeyValues])
      (rows : RowsStored requests requests caches b₁ b' (∃ made, result = .ok made)) :
      PrefillBatchEffect requests b (result, b')

theorem PrefillBatchEffect.failed {e : Raised} {first second : PrefillRequest} (same : books b' = books b) :
    PrefillBatchEffect (first :: second :: rest) b (.error e, b') :=
  .nothing same fun ⟨_, impossible⟩ => by cases impossible

theorem width_single (request : PrefillRequest) : width [request] = request.prompt.tokenIds.length := Nat.max_zero _

theorem padding_single (request : PrefillRequest) : padding [request] request = 0 := by
  rw [padding, width_single, Nat.sub_self]

theorem prefillBatchCall_single (request : PrefillRequest) (padId : TokenId) :
    prefillBatchCall rt padId [request] = prefillCall rt request.prompt := by
  simp only [prefillBatchCall, prefillCall, List.map_cons, List.map_nil, maskRow, padding_single, width_single,
    List.replicate_zero, List.nil_append]

theorem prefillBatch_single (request : PrefillRequest) : (prefillBatch [request] : Method rt BatchTokenResult) =
    prefill request >>= fun made => pure ⟨Dict.empty.insert request.sequenceId made, .empty⟩ := rfl

theorem PrefillBatchEffect.ofSingle {result : Except Raised GeneratedToken} {batched : Except Raised BatchTokenResult}
    (effect : PrefillEffect request b (result, b')) (raises : (∃ made, batched = .ok made) → ∃ made, result = .ok made) :
    PrefillBatchEffect [request] b (batched, b') := by
  have alone : prefillBatchCall rt 0 [request] = prefillCall rt request.prompt := prefillBatchCall_single request 0
  have unshifted : padding [request] request = 0 := padding_single request
  cases effect with
  | nothing same =>
    refine .nothing same fun done => ?_
    obtain ⟨made, impossible⟩ := raises done
    cases impossible
  | called sequences calls =>
    cases batched with
    | ok made =>
      obtain ⟨_, impossible⟩ := raises ⟨made, rfl⟩
      cases impossible
    | error e => exact .called sequences (calls.trans (congrArg (· :: b.calls) alone.symm))
  | stored fresh calls answers prefilled sequences =>
    have rows : RowsStored [request] [] [] b' b' (∃ made, batched = .ok made) := .refl rfl fun _ => rfl
    obtain ⟨b₁, same, begun⟩ : ∃ b₁ : HuggingFaceTokenBackend rt, b₁.sequences = b.sequences ∧ b₁.calls = b'.calls :=
      ⟨{ b with calls := b'.calls }, rfl, rfl⟩
    rw [← same] at sequences
    rw [← alone] at calls answers
    rw [← unshifted] at prefilled
    refine .stored (List.nodup_singleton _) ?_ same (begun.trans calls) answers (Or.inr ⟨rfl, rfl⟩)
      (.next begun.symm sequences prefilled rows)
    intro row member
    rw [List.mem_singleton.mp member]
    exact fresh

theorem prefillBatch_effect (requests : List PrefillRequest) (b : HuggingFaceTokenBackend rt) :
    PrefillBatchEffect requests b (prefillBatch requests b) := by
  match requests with
  | [] => exact .nothing rfl fun _ => rfl
  | [request] =>
    rw [prefillBatch_single]
    have effect := prefill_effect request b
    rcases bind_cases (prefill request)
      (fun made => (pure ⟨Dict.empty.insert request.sequenceId made, .empty⟩ : Method rt BatchTokenResult)) b with
      ⟨made, b', run, whole⟩ | ⟨e, b', run, whole⟩
    all_goals
      rw [run] at effect
      rw [whole]
    · exact .ofSingle effect fun _ => ⟨made, rfl⟩
    · exact .ofSingle effect fun ⟨_, impossible⟩ => by cases impossible
  | first :: second :: rest =>
    unfold prefillBatch
    refine keeps_requireActive.bind_post (fun _ b₁ same₁ => ?_) fun e b₁ same₁ => .failed same₁
    refine check_post (fun distinct => ?_) fun _ => .failed same₁
    beta_reduce
    rw [bind_ok run_read]
    refine check_post (fun absent => ?_) fun _ => .failed same₁
    beta_reduce
    refine keeps_loadModel.bind_post (fun _ b₂ same₂ => ?_) fun e b₂ same₂ => .failed (same₂.trans same₁)
    have before₂ := same₂.trans same₁
    refine keeps_requireModel.bind_post (fun _ b₃ same₃ => ?_) fun e b₃ same₃ => .failed (same₃.trans before₂)
    have before₃ := same₃.trans before₂
    rw [bind_ok run_read]
    rcases rt.tokenizer b₃.world with - | tokenizer
    · exact .failed before₃
    dsimp only
    rcases tokenizer.padTokenId with - | padId
    · exact .failed before₃
    have sequences : b₃.sequences = b.sequences := congrArg Prod.fst before₃
    have calls : b₃.calls = b.calls := congrArg Prod.snd before₃
    refine call_post (fun outputs world answers => ?_) fun e cache world => .called sequences (congrArg _ calls)
    generalize begun : ({ b₃ with world, calls := prefillBatchCall rt padId (first :: second :: rest) :: b₃.calls } :
      HuggingFaceTokenBackend rt) = b₄
    have sequences₄ : b₄.sequences = b.sequences := by
      rw [← begun]
      exact sequences
    have calls₄ : b₄.calls = prefillBatchCall rt padId (first :: second :: rest) :: b.calls := by
      rw [← begun]
      exact congrArg _ calls
    have rows := @storePrefilled_rows rt (first :: second :: rest) (first :: second :: rest) outputs.logits 0
      (rt.batchSplit outputs.pastKeyValues (first :: second :: rest).length) .empty (fun _ member => member) b₄
    have fresh : ∀ request ∈ first :: second :: rest, b.sequences.get? request.sequenceId = none := by
      intro request member
      have unknown := List.any_eq_false.mp (Bool.eq_false_iff.mpr absent) request member
      rw [← show b₁.sequences = b.sequences from congrArg Prod.fst same₁]
      exact Dict.contains_eq_false_iff.mp (Bool.eq_false_iff.mpr unknown)
    rcases bind_cases (storePrefilled (first :: second :: rest) outputs.logits 0 (first :: second :: rest)
      (rt.batchSplit outputs.pastKeyValues (first :: second :: rest).length) .empty)
      (fun tokens => (pure ⟨tokens, .empty⟩ : Method rt BatchTokenResult)) b₄ with
      ⟨tokens, b', run, whole⟩ | ⟨e, b', run, whole⟩
    all_goals
      rw [run] at rows
      rw [whole]
    · exact .stored (not_not.mp distinct) fresh sequences₄ calls₄ answers (Or.inl rfl)
        { rows with complete := fun _ => rows.complete ⟨tokens, rfl⟩ }
    · exact .stored (not_not.mp distinct) fresh sequences₄ calls₄ answers (Or.inl rfl)
        { rows with complete := fun ⟨_, impossible⟩ => by cases impossible }

end Batch

end ServingPlatform.HuggingFaceTokenBackend
