import ServingPlatform.TokenBackend.Effects

namespace ServingPlatform

/-- What the model reads of a row: the token ids of the columns that are not
masked, each with its position. -/
def ModelCall.unmasked {κ : Type} (input : ModelCall κ) (row : Nat) : List (TokenId × Nat) :=
  ((input.attentionMask.getD row []).zip ((input.inputIds.getD row []).zip input.cachePosition)).filterMap
    fun (mask, column) => if mask = 0 then none else some column

namespace HuggingFaceTokenBackend

open Attempt

variable {rt : TokenRuntime} {b b' : HuggingFaceTokenBackend rt} {requests : List PrefillRequest} {request : PrefillRequest}
  {row : Nat}

/-- A step of the backend has called its model, once and with this input. -/
def Submits (b b' : HuggingFaceTokenBackend rt) (input : ModelCall rt.Cache) : Prop := b'.calls = input :: b.calls

/-- A step of the backend has made a sequence. -/
def Makes (b b' : HuggingFaceTokenBackend rt) (sequenceId : String) (sequence : SequenceCache rt) : Prop :=
  b.sequences.get? sequenceId = none ∧ b'.sequences.get? sequenceId = some sequence

section Columns

variable {κ : Type} {columns : List (TokenId × Nat)} {n : Nat}

theorem columns_masked (columns : List (TokenId × Nat)) (n : Nat) :
    ((List.replicate n 0).zip columns).filterMap (fun (mask, column) => if mask = 0 then none else some column) = [] := by
  rw [List.filterMap_eq_nil_iff]
  rintro ⟨mask, column⟩ member
  have zero := List.eq_of_mem_replicate (List.of_mem_zip member).1
  simp only [zero, if_true]

theorem columns_read (wide : columns.length = n) :
    ((List.replicate n 1).zip columns).filterMap (fun (mask, column) => if mask = 0 then none else some column) = columns := by
  induction columns generalizing n with
  | nil => simp only [List.zip_nil_right, List.filterMap_nil]
  | cons column columns ih =>
    obtain ⟨n, rfl⟩ : ∃ m, n = m + 1 := ⟨columns.length, wide.symm⟩
    have rest := ih (Nat.succ.inj wide)
    simp only [List.replicate_succ, List.zip_cons_cons, List.filterMap_cons, Nat.one_ne_zero, if_false, rest]

/-- In a row that is padded on the left the positions start behind the padding. -/
theorem unmasked_padded {ids : List TokenId} {shift : Nat} {padId : TokenId} {input : ModelCall κ}
    (tokens : input.inputIds[row]? = some (List.replicate shift padId ++ ids))
    (mask : input.attentionMask[row]? = some (List.replicate shift 0 ++ List.replicate ids.length 1))
    (positions : input.cachePosition = List.range (shift + ids.length)) :
    input.unmasked row = ids.zip (List.range' shift ids.length) := by
  have split : List.range (shift + ids.length) = List.range shift ++ List.range' shift ids.length := by
    rw [List.range_eq_range', List.range_eq_range', ← List.range'_append_1, Nat.zero_add]
  have wide : (ids.zip (List.range' shift ids.length)).length = ids.length := by
    rw [List.length_zip, List.length_range', Nat.min_self]
  have padded : ((List.replicate shift padId).zip (List.range shift)).length = shift := by
    rw [List.length_zip, List.length_replicate, List.length_range, Nat.min_self]
  unfold ModelCall.unmasked
  rw [List.getD_eq_getElem?_getD, List.getD_eq_getElem?_getD, tokens, mask, positions, split, Option.getD_some, Option.getD_some,
    List.zip_append (by rw [List.length_replicate, List.length_range]), List.zip_append (by rw [List.length_replicate, padded]),
    List.filterMap_append, columns_masked, columns_read wide, List.nil_append]

theorem zip_shift (ids : List TokenId) (shift : Nat) :
    ids.zip (List.range' shift ids.length) =
      (ids.zip (List.range' 0 ids.length)).map fun (token, position) => (token, position + shift) := by
  have moved : List.range' shift ids.length = (List.range' 0 ids.length).map (shift + ·) := by
    rw [List.map_add_range', Nat.add_zero]
  rw [moved, List.zip_map_right]
  refine List.map_congr_left fun column _ => ?_
  rw [Prod.map, Nat.add_comm]
  rfl

theorem zip_shift_eq_iff {ids : List TokenId} (nonempty : ids ≠ []) {shift : Nat} :
    ids.zip (List.range' shift ids.length) = ids.zip (List.range' 0 ids.length) ↔ shift = 0 := by
  obtain ⟨token, rest, rfl⟩ := List.exists_cons_of_ne_nil nonempty
  constructor
  · intro same
    rw [List.length_cons, List.range'_succ, List.range'_succ, List.zip_cons_cons, List.zip_cons_cons] at same
    exact congrArg Prod.snd (List.cons.inj same).1
  · rintro rfl
    rfl

end Columns

theorem unmasked_batch {padId : TokenId} (present : requests[row]? = some request) :
    (prefillBatchCall rt padId requests).unmasked row =
      request.prompt.tokenIds.zip (List.range' (padding requests request) request.prompt.tokenIds.length) := by
  have member := List.mem_of_getElem? present
  refine @unmasked_padded row rt.Cache _ _ padId _ ?_ ?_ ?_
  · rw [prefillBatchCall, List.getElem?_map, present]
    rfl
  · rw [prefillBatchCall, List.getElem?_map, present]
    rfl
  · rw [padding_add member]
    rfl

theorem unmasked_alone (request : PrefillRequest) :
    (prefillCall rt request.prompt).unmasked 0 =
      request.prompt.tokenIds.zip (List.range' 0 request.prompt.tokenIds.length) := by
  rw [← prefillBatchCall_single request 0, unmasked_batch rfl, padding_single]

theorem ne_cons_self {α : Type} {a : α} {as : List α} (same : as = a :: as) : False := by
  have lengths := congrArg List.length same
  rw [List.length_cons] at lengths
  omega

theorem PrefillBatchEffect.submits {outcome : Except Raised BatchTokenResult × HuggingFaceTokenBackend rt}
    {input : ModelCall rt.Cache} (effect : PrefillBatchEffect requests b outcome) (submits : Submits b outcome.2 input) :
    ∃ padId, input = prefillBatchCall rt padId requests := by
  cases effect with
  | nothing same => exact (ne_cons_self ((congrArg Prod.snd same).symm.trans submits)).elim
  | called sequences calls => exact ⟨_, (List.cons.inj (submits.symm.trans calls)).1⟩
  | stored distinct fresh sequences calls answers parts rows =>
    exact ⟨_, (List.cons.inj (submits.symm.trans (rows.calls.trans calls))).1⟩

theorem PrefillBatchEffect.makes {outcome : Except Raised BatchTokenResult × HuggingFaceTokenBackend rt}
    {sequence : SequenceCache rt} (effect : PrefillBatchEffect requests b outcome)
    (makes : Makes b outcome.2 request.sequenceId sequence) : sequence.cachePosition = [width requests] := by
  obtain ⟨absent, found⟩ := makes
  cases effect with
  | @nothing result b' same empty =>
    have kept : b'.sequences = b.sequences := congrArg Prod.fst same
    rw [kept, absent] at found
    cases found
  | called sequences calls =>
    rw [sequences, absent] at found
    cases found
  | stored distinct fresh sequences calls answers parts rows =>
    rcases rows.stored _ _ found with old | ⟨other, chosen, named, cache, -, tokenId, logits, rfl⟩
    · rw [sequences, absent] at old
      cases old
    · exact congrArg (fun n => [n]) (padding_add chosen)

theorem PrefillBatchEffect.completes {outcome : Except Raised BatchTokenResult × HuggingFaceTokenBackend rt}
    {made : BatchTokenResult} (effect : PrefillBatchEffect requests b outcome) (member : request ∈ requests)
    (done : outcome.1 = .ok made) : (∃ input, Submits b outcome.2 input) ∧ ∃ sequence, Makes b outcome.2 request.sequenceId sequence := by
  cases effect with
  | nothing same empty =>
    rw [empty ⟨made, done⟩] at member
    cases member
  | called sequences calls => cases done
  | stored distinct fresh sequences calls answers parts rows =>
    obtain ⟨sequence, found⟩ := Option.isSome_iff_exists.mp (rows.complete ⟨made, done⟩ request member)
    exact ⟨⟨_, rows.calls.trans calls⟩, sequence, fresh request member, found⟩

/-- A prefill alone is a batch of one. -/
theorem prefill_effect_batch (request : PrefillRequest) (b : HuggingFaceTokenBackend rt) :
    ∃ batched, PrefillBatchEffect [request] b (batched, (prefill request b).2) ∧
      ∀ made, (prefill request b).1 = .ok made → ∃ result, batched = .ok result := by
  have effect := prefill_effect request b
  rcases run : prefill request b with ⟨e | made, b'⟩
  · rw [run] at effect
    refine ⟨.error e, PrefillBatchEffect.ofSingle effect ?_, fun _ impossible => by cases impossible⟩
    rintro ⟨_, impossible⟩
    cases impossible
  · rw [run] at effect
    exact ⟨.ok ⟨.empty, .empty⟩, PrefillBatchEffect.ofSingle effect fun _ => ⟨made, rfl⟩, fun _ _ => ⟨_, rfl⟩⟩

/-- In a batch a prompt is read as it is alone, but at positions shifted by its
padding, and the position after it is shifted as far: nothing is shifted only
for the longest prompts. -/
theorem prefill_batch_shifts (present : requests[row]? = some request) (b alone : HuggingFaceTokenBackend rt) :
    (∀ result, (prefillBatch requests b).1 = .ok result →
      (∃ input, Submits b (prefillBatch requests b).2 input) ∧
        ∃ batched, Makes b (prefillBatch requests b).2 request.sequenceId batched) ∧
    (∀ made, (prefill request alone).1 = .ok made →
      (∃ input, Submits alone (prefill request alone).2 input) ∧
        ∃ single, Makes alone (prefill request alone).2 request.sequenceId single) ∧
    (∀ input single, Submits b (prefillBatch requests b).2 input → Submits alone (prefill request alone).2 single →
      input.unmasked row =
        (single.unmasked 0).map (fun (token, position) => (token, position + padding requests request)) ∧
      (input.unmasked row = single.unmasked 0 ↔ padding requests request = 0)) ∧
    (∀ batched single, Makes b (prefillBatch requests b).2 request.sequenceId batched →
      Makes alone (prefill request alone).2 request.sequenceId single →
      batched.cachePosition = single.cachePosition.map (· + padding requests request) ∧
      (batched.cachePosition = single.cachePosition ↔ padding requests request = 0)) := by
  have member := List.mem_of_getElem? present
  have effect := prefillBatch_effect requests b
  obtain ⟨asBatch, effectAlone, completes⟩ := prefill_effect_batch request alone
  refine ⟨fun result => effect.completes member, fun made done => ?_, ?_, ?_⟩
  · obtain ⟨result, done⟩ := completes made done
    exact effectAlone.completes List.mem_cons_self done
  · intro input single submits submitsAlone
    obtain ⟨padId, rfl⟩ := effect.submits submits
    obtain ⟨unused, rfl⟩ := effectAlone.submits submitsAlone
    rw [unmasked_batch present, prefillBatchCall_single, unmasked_alone]
    exact ⟨zip_shift _ _, zip_shift_eq_iff request.prompt.nonempty⟩
  · intro batched single makes makesAlone
    have shifted := padding_add member
    rw [effect.makes makes, effectAlone.makes makesAlone, width_single, ← shifted]
    constructor
    · rw [List.map_cons, List.map_nil, Nat.add_comm]
    · rw [List.cons_eq_cons]
      simp only [and_true]
      omega

namespace SharedBatch

/-- A runtime whose caches are the numbers of their columns. -/
def runtime : TokenRuntime where
  Cache := Nat
  Logits := Unit
  World := Unit
  dynamicCache := 0
  cacheLength := id
  fromBatchSplits caches := caches.headD 0
  batchSplit cache n := List.replicate n cache
  loadModel := pure ()
  modelLoaded _ := true
  tokenizer _ := some ⟨some 0, fun prompt => prompt.toList.map fun c => c.toNat, fun _ => "the"⟩
  eosTokenIds _ := [2]
  callModel input world := (.ok ⟨fun _ => (), (input.pastKeyValues + input.cachePosition.length : Nat)⟩, world)
  select _ _ := pure 7
  unload world := world

def parameters : SamplingParameters := .unstopped 4 (by decide)

def short : PrefillRequest := ⟨"short", ⟨[5], by decide⟩, parameters⟩

def long : PrefillRequest := ⟨"long", ⟨[5, 6, 8], by decide⟩, parameters⟩

def backend : HuggingFaceTokenBackend runtime := ⟨.empty, false, (), []⟩

end SharedBatch

open SharedBatch in
theorem prefill_batch_shifts_short :
    ∃ input single batched stored, Submits backend (prefillBatch [short, long] backend).2 input ∧
      Submits backend (prefill short backend).2 single ∧ Makes backend (prefillBatch [short, long] backend).2 "short" batched ∧
      Makes backend (prefill short backend).2 "short" stored ∧
      input.unmasked 0 = (single.unmasked 0).map (fun (token, position) => (token, position + 2)) ∧
      input.unmasked 0 ≠ single.unmasked 0 ∧ batched.cachePosition = stored.cachePosition.map (· + 2) := by
  obtain ⟨completes, completesAlone, reads, stores⟩ := @prefill_batch_shifts runtime [short, long] short 0 rfl backend backend
  obtain ⟨⟨input, submits⟩, batched, makes⟩ := completes _ rfl
  obtain ⟨⟨single, submitsAlone⟩, stored, makesAlone⟩ := completesAlone _ rfl
  obtain ⟨shifted, same⟩ := reads input single submits submitsAlone
  refine ⟨input, single, batched, stored, submits, submitsAlone, makes, makesAlone, shifted, fun equal => ?_, (stores batched stored makes makesAlone).1⟩
  have unshifted := same.mp equal
  exact absurd unshifted (by decide)

open SharedBatch in
/-- Beside a longer prompt the short one is read at other positions than alone, and its next token comes later. -/
theorem short_prompt_shifted_by_peer :
    ∃ input single batched stored, Submits backend (prefillBatch [short, long] backend).2 input ∧
      Submits backend (prefill short backend).2 single ∧ Makes backend (prefillBatch [short, long] backend).2 "short" batched ∧
      Makes backend (prefill short backend).2 "short" stored ∧
      input.unmasked 0 = [(5, 2)] ∧ single.unmasked 0 = [(5, 0)] ∧
      batched.cachePosition = [3] ∧ stored.cachePosition = [1] :=
  ⟨_, _, _, _, rfl, rfl, ⟨rfl, rfl⟩, ⟨rfl, rfl⟩, rfl, rfl, rfl, rfl⟩

end HuggingFaceTokenBackend

end ServingPlatform
