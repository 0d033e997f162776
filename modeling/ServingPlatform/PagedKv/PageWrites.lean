import Mathlib.Logic.Function.Basic
import ServingPlatform.Library.Paging
import ServingPlatform.PagedKv.Pages

namespace ServingPlatform

variable {α : Type} {config : PagedKVConfig} {torch : Torch} {keys values : List (Tensor α)}
  {table : List BlockId} {page : BlockId} {pageOffset sourceOffset count : Nat}

/-- Outside the given places and shape, the pools agree. -/
def AgreeOutside (config : PagedKVConfig) (touched : BlockId → Nat → Prop) (before after : PagePools α) : Prop :=
  ∀ l p h t d, ¬ (touched p t ∧ l < config.numLayers ∧ h < config.numKvHeads ∧ d < config.headDim) →
    after.keyPages l p h t d = before.keyPages l p h t d ∧
      after.valuePages l p h t d = before.valuePages l p h t d

/-- The key and value of one token, by layer, head and head dimension. -/
structure TokenColumns (α : Type) where
  key : Nat → Nat → Nat → α
  value : Nat → Nat → Nat → α

/-- The column of the appended tensors at token `i`. -/
def columnAt [Zero α] (keys values : List (Tensor α)) (i : Nat) : TokenColumns α where
  key l h d := keys[l]?.elim 0 fun tensor => tensor.entry [h, i, d]
  value l h d := values[l]?.elim 0 fun tensor => tensor.entry [h, i, d]

/-- A place of the pools holds the given column in every layer. -/
def HoldsColumn (config : PagedKVConfig) (pools : PagePools α) (place : BlockId × Nat)
    (column : TokenColumns α) : Prop :=
  ∀ l h d, l < config.numLayers → h < config.numKvHeads → d < config.headDim →
    pools.keyPages l place.1 h place.2 d = column.key l h d ∧
      pools.valuePages l place.1 h place.2 d = column.value l h d

theorem AgreeOutside.refl (touched : BlockId → Nat → Prop) (pools : PagePools α) :
    AgreeOutside config touched pools pools :=
  fun _ _ _ _ _ _ => ⟨rfl, rfl⟩

theorem AgreeOutside.trans {touched : BlockId → Nat → Prop} {first second third : PagePools α}
    (left : AgreeOutside config touched first second) (right : AgreeOutside config touched second third) :
    AgreeOutside config touched first third := by
  intro l p h t d outside
  obtain ⟨keyRight, valueRight⟩ := right l p h t d outside
  obtain ⟨keyLeft, valueLeft⟩ := left l p h t d outside
  exact ⟨keyRight.trans keyLeft, valueRight.trans valueLeft⟩

theorem AgreeOutside.mono {touched wider : BlockId → Nat → Prop} {before after : PagePools α}
    (agree : AgreeOutside config touched before after) (wide : ∀ p t, touched p t → wider p t) :
    AgreeOutside config wider before after :=
  fun l p h t d outside => agree l p h t d fun ⟨inside, shape⟩ => outside ⟨wide p t inside, shape⟩

/-- A column outside the touched places stays where it was. -/
theorem HoldsColumn.of_agree {touched : BlockId → Nat → Prop} {before after : PagePools α}
    {place : BlockId × Nat} {column : TokenColumns α} (agree : AgreeOutside config touched before after)
    (outside : ¬ touched place.1 place.2) (held : HoldsColumn config before place column) :
    HoldsColumn config after place column := by
  intro l h d layer head dim
  obtain ⟨sameKey, sameValue⟩ := agree l place.1 h place.2 d fun inside => outside inside.1
  obtain ⟨keyHeld, valueHeld⟩ := held l h d layer head dim
  exact ⟨sameKey.trans keyHeld, sameValue.trans valueHeld⟩

theorem copyColumns_ok {layer : Nat} {source : Tensor α} {pages pages' : Pages α}
    (run : copyColumns config torch layer page pageOffset sourceOffset count source pages = .ok pages')
    (l : Nat) (p : BlockId) (h t d : Nat) :
    pages' l p h t d =
      if l = layer ∧ p = page ∧ h < config.numKvHeads ∧ pageOffset ≤ t ∧ t < pageOffset + count ∧
          d < config.headDim then
        source.entry [h, sourceOffset + (t - pageOffset), d]
      else pages l p h t d := by
  unfold copyColumns at run
  dsimp only at run
  split at run
  · cases run
    rfl
  · cases run

/-- A rank-three source of the checked shape is never refused. -/
theorem copyColumns_of_shape (torch : Torch) (layer : Nat) (page : BlockId) {tokens : Nat} {source : Tensor α}
    (pages : Pages α)
    (shape : source.shape = [config.numKvHeads, tokens, config.headDim])
    (inSource : sourceOffset + count ≤ tokens) (inPage : pageOffset + count ≤ config.blockSizeTokens) :
    ∃ pages', copyColumns config torch layer page pageOffset sourceOffset count source pages = .ok pages' := by
  have equal : source.shape.modify 1 (fun size => min (sourceOffset + count) size - sourceOffset) =
      [config.numKvHeads, min (pageOffset + count) config.blockSizeTokens - pageOffset, config.headDim] := by
    rw [shape, Nat.min_eq_left inPage, Nat.add_sub_cancel_left]
    simp [List.modify, List.modifyTailIdx, List.modifyTailIdx.go, List.modifyHead, Nat.min_eq_left inSource]
  unfold copyColumns
  dsimp only
  rw [if_pos equal]
  exact ⟨_, rfl⟩

/-- A source of another rank is refused. -/
theorem copyColumns_of_rank (config : PagedKVConfig) (torch : Torch) (layer : Nat) (page : BlockId)
    (pageOffset sourceOffset count : Nat) {source : Tensor α} (pages : Pages α) (rank : source.shape.length ≠ 3) :
    ∃ raised, copyColumns config torch layer page pageOffset sourceOffset count source pages = .error raised := by
  unfold copyColumns
  dsimp only
  rw [if_neg]
  · exact ⟨_, rfl⟩
  · intro equal
    have length := congrArg List.length equal
    rw [List.length_modify] at length
    exact rank length

/-- The places of one page run. -/
def RunPlaces (page : BlockId) (pageOffset count : Nat) (p : BlockId) (t : Nat) : Prop :=
  p = page ∧ pageOffset ≤ t ∧ t < pageOffset + count

namespace TorchPagedKVCache

theorem copyLayers_agree {layers : List Nat} {pools after : PagePools α} {result : Except Raised Unit}
    (run : copyLayers config torch keys values page pageOffset sourceOffset count layers pools = (result, after))
    (inRange : ∀ l ∈ layers, l < config.numLayers) :
    AgreeOutside config (RunPlaces page pageOffset count) pools after := by
  induction layers generalizing pools with
  | nil =>
    cases run
    exact .refl _ _
  | cons layer rest ih =>
    have bound := inRange layer (List.mem_cons_self ..)
    have restRange : ∀ l ∈ rest, l < config.numLayers := fun l member => inRange l (List.mem_cons_of_mem _ member)
    unfold copyLayers at run
    split at run
    · rename_i key value atKey atValue
      split at run
      · cases run
        exact .refl _ _
      · rename_i keyPages keyRun
        have keySame : ∀ l p h t d, ¬ (RunPlaces page pageOffset count p t ∧ l < config.numLayers ∧
            h < config.numKvHeads ∧ d < config.headDim) → keyPages l p h t d = pools.keyPages l p h t d := by
          intro l p h t d outside
          rw [copyColumns_ok keyRun, if_neg]
          rintro ⟨rfl, rfl, head, lower, upper, dim⟩
          exact outside ⟨⟨rfl, lower, upper⟩, bound, head, dim⟩
        split at run
        · cases run
          exact fun l p h t d outside => ⟨keySame l p h t d outside, rfl⟩
        · rename_i valuePages valueRun
          refine .trans (fun l p h t d outside => ⟨keySame l p h t d outside, ?_⟩) (ih run restRange)
          show valuePages l p h t d = pools.valuePages l p h t d
          rw [copyColumns_ok valueRun, if_neg]
          rintro ⟨rfl, rfl, head, lower, upper, dim⟩
          exact outside ⟨⟨rfl, lower, upper⟩, bound, head, dim⟩
    · cases run
      exact .refl _ _

/-- A completed run holds its columns in every layer copied. -/
theorem copyLayers_written {layers : List Nat} {pools after : PagePools α}
    (run : copyLayers config torch keys values page pageOffset sourceOffset count layers pools = (.ok (), after))
    {l h t d : Nat} {key value : Tensor α} (atKey : keys[l]? = some key) (atValue : values[l]? = some value)
    (head : h < config.numKvHeads) (lower : pageOffset ≤ t) (upper : t < pageOffset + count)
    (dim : d < config.headDim)
    (given : l ∈ layers ∨ pools.keyPages l page h t d = key.entry [h, sourceOffset + (t - pageOffset), d] ∧
      pools.valuePages l page h t d = value.entry [h, sourceOffset + (t - pageOffset), d]) :
    after.keyPages l page h t d = key.entry [h, sourceOffset + (t - pageOffset), d] ∧
      after.valuePages l page h t d = value.entry [h, sourceOffset + (t - pageOffset), d] := by
  induction layers generalizing pools with
  | nil =>
    cases run
    exact given.resolve_left (List.not_mem_nil)
  | cons layer rest ih =>
    unfold copyLayers at run
    split at run
    · rename_i first second atFirst atSecond
      split at run
      · cases run
      · rename_i keyPages keyRun
        split at run
        · cases run
        · rename_i valuePages valueRun
          refine ih run ?_
          by_cases here : l = layer
          · subst here
            cases atFirst.symm.trans atKey
            cases atSecond.symm.trans atValue
            refine Or.inr ⟨?_, ?_⟩
            · show keyPages l page h t d = _
              rw [copyColumns_ok keyRun, if_pos ⟨rfl, rfl, head, lower, upper, dim⟩]
            · show valuePages l page h t d = _
              rw [copyColumns_ok valueRun, if_pos ⟨rfl, rfl, head, lower, upper, dim⟩]
          · rcases given with member | held
            · exact Or.inl ((List.mem_cons.mp member).resolve_left here)
            · refine Or.inr ⟨?_, ?_⟩
              · show keyPages l page h t d = _
                rw [copyColumns_ok keyRun, if_neg fun inside => here inside.1]
                exact held.1
              · show valuePages l page h t d = _
                rw [copyColumns_ok valueRun, if_neg fun inside => here inside.1]
                exact held.2
    · cases run

/-- Tensors of the checked shape are copied in full. -/
theorem copyLayers_of_shape (torch : Torch) (page : BlockId) {layers : List Nat} {tokens : Nat}
    (pools : PagePools α)
    (shapes : ∀ tensor ∈ keys ++ values, tensor.shape = [config.numKvHeads, tokens, config.headDim])
    (inKeys : ∀ l ∈ layers, l < keys.length) (inValues : ∀ l ∈ layers, l < values.length)
    (inSource : sourceOffset + count ≤ tokens) (inPage : pageOffset + count ≤ config.blockSizeTokens) :
    ∃ after, copyLayers config torch keys values page pageOffset sourceOffset count layers pools =
      (.ok (), after) := by
  induction layers generalizing pools with
  | nil => exact ⟨pools, rfl⟩
  | cons layer rest ih =>
    have atKey := List.getElem?_eq_getElem (inKeys layer (List.mem_cons_self ..))
    have atValue := List.getElem?_eq_getElem (inValues layer (List.mem_cons_self ..))
    have keyShape := shapes _ (List.mem_append_left _ (List.mem_of_getElem? atKey))
    have valueShape := shapes _ (List.mem_append_right _ (List.mem_of_getElem? atValue))
    obtain ⟨keyPages, keyRun⟩ := copyColumns_of_shape torch layer page pools.keyPages keyShape inSource inPage
    obtain ⟨valuePages, valueRun⟩ := copyColumns_of_shape torch layer page pools.valuePages valueShape inSource inPage
    obtain ⟨after, run⟩ := ih ⟨keyPages, valuePages⟩ (fun l member => inKeys l (List.mem_cons_of_mem _ member))
      (fun l member => inValues l (List.mem_cons_of_mem _ member))
    refine ⟨after, ?_⟩
    unfold copyLayers
    simp only [atKey, atValue, keyRun, valueRun, run]

end TorchPagedKVCache

end ServingPlatform

namespace ServingPlatform

/-- The mutating calls, with arbitrary arguments. -/
inductive PagedCall (α : Type)
  | allocate (sequenceId : String) (tokenCapacity : Int)
  | append (sequenceId : String) (keys values : List (Tensor α))
  | release (sequenceId : String)

inductive PagedAnswer
  | sequence (answer : PagedSequence)
  | flag (released : Bool)

variable {α : Type}

def PagedCall.sequenceId : PagedCall α → String
  | .allocate sequenceId _ => sequenceId
  | .append sequenceId _ _ => sequenceId
  | .release sequenceId => sequenceId

def TorchPagedKVCache.perform (cache : TorchPagedKVCache α) :
    PagedCall α → Except Raised PagedAnswer × TorchPagedKVCache α
  | .allocate sequenceId tokenCapacity =>
    ((cache.allocate sequenceId tokenCapacity).1.map .sequence, (cache.allocate sequenceId tokenCapacity).2)
  | .append sequenceId keys values =>
    ((cache.append sequenceId keys values).1.map .sequence, (cache.append sequenceId keys values).2)
  | .release sequenceId => ((cache.release sequenceId).1.map .flag, (cache.release sequenceId).2)

/-- What the pool is for: every live sequence has a list of token columns. -/
abbrev SequenceContents (α : Type) := String → Option (List (TokenColumns α))

variable [Zero α]

/-- The columns of one append, one for each token of its tensors. -/
def appendedColumns (keys values : List (Tensor α)) : List (TokenColumns α) :=
  (List.range ((keys.head?.bind fun key => key.shape[1]?).getD 0)).map (columnAt keys values)

namespace SequenceContents

/-- Successful calls start, extend and end a sequence's list; raising calls do nothing. -/
def record (contents : SequenceContents α) : PagedCall α → Except Raised PagedAnswer → SequenceContents α
  | _, .error _ => contents
  | .allocate sequenceId _, .ok _ => Function.update contents sequenceId (some [])
  | .append sequenceId keys values, .ok _ =>
    Function.update contents sequenceId ((contents sequenceId).map (· ++ appendedColumns keys values))
  | .release sequenceId, .ok _ => Function.update contents sequenceId none

def lengthsOf (contents : SequenceContents α) : List String → Except Raised (List Nat)
  | [] => .ok []
  | sequenceId :: rest =>
    match contents sequenceId with
    | none => .error (keyError s!"unknown paged KV sequence: {sequenceId}")
    | some columns => (lengthsOf contents rest).map (columns.length :: ·)

/-- The token shown in a row at a position; `none` in the padding. -/
def tokenAt (contents : SequenceContents α) (sequenceIds : List String) (row token : Nat) :
    Option (TokenColumns α) :=
  sequenceIds[row]?.bind fun sequenceId => (contents sequenceId).bind fun columns => columns[token]?

/-- The padded batch of the given sequences, read off their lists. -/
def batch (config : PagedKVConfig) (contents : SequenceContents α) (layer : Nat) (sequenceIds : List String)
    (tokens : Nat) : GatheredBatch α where
  rows := sequenceIds.length
  kvHeads := config.numKvHeads
  tokens := tokens
  headDim := config.headDim
  keys row head token dim :=
    if head < config.numKvHeads ∧ dim < config.headDim then
      (contents.tokenAt sequenceIds row token).elim 0 fun column => column.key layer head dim
    else 0
  values row head token dim :=
    if head < config.numKvHeads ∧ dim < config.headDim then
      (contents.tokenAt sequenceIds row token).elim 0 fun column => column.value layer head dim
    else 0
  mask row token := (contents.tokenAt sequenceIds row token).isSome

def materialize (config : PagedKVConfig) (contents : SequenceContents α) (layer : Int)
    (sequenceIds : List String) : Except Raised (GatheredBatch α) :=
  if ¬ (0 ≤ layer ∧ layer < config.numLayers) then .error (valueError "paged KV layer is out of range")
  else if sequenceIds = [] then .error (valueError "at least one sequence is required")
  else if ¬ sequenceIds.Nodup then .error (valueError "paged KV batch contains duplicate sequences")
  else match contents.lengthsOf sequenceIds with
    | .error raised => .error raised
    | .ok lengths =>
      if lengths.foldr max 0 = 0 then .error (valueError "paged attention requires stored KV tokens")
      else .ok (contents.batch config layer.toNat sequenceIds (lengths.foldr max 0))

/-- Sequences with equal lists are materialized alike. -/
theorem materialize_congr (config : PagedKVConfig) {contents contents' : SequenceContents α} (layer : Int)
    {sequenceIds : List String} (same : ∀ sequenceId ∈ sequenceIds, contents' sequenceId = contents sequenceId) :
    contents'.materialize config layer sequenceIds = contents.materialize config layer sequenceIds := by
  have lengths : contents'.lengthsOf sequenceIds = contents.lengthsOf sequenceIds := by
    induction sequenceIds with
    | nil => rfl
    | cons sequenceId rest ih =>
      unfold lengthsOf
      rw [same sequenceId (List.mem_cons_self ..), ih fun other member => same other (List.mem_cons_of_mem _ member)]
  have tokens : contents'.tokenAt sequenceIds = contents.tokenAt sequenceIds := by
    funext row token
    unfold tokenAt
    cases atRow : sequenceIds[row]? with
    | none => rfl
    | some sequenceId => rw [Option.bind_some, Option.bind_some, same sequenceId (List.mem_of_getElem? atRow)]
  unfold materialize batch
  rw [lengths, tokens]

theorem record_of_ne (contents : SequenceContents α) (call : PagedCall α) (answer : Except Raised PagedAnswer)
    {sequenceId : String} (other : sequenceId ≠ call.sequenceId) :
    contents.record call answer sequenceId = contents sequenceId := by
  cases answer with
  | error raised => cases call <;> rfl
  | ok answer => cases call <;> exact Function.update_of_ne other _ _

end SequenceContents

end ServingPlatform
