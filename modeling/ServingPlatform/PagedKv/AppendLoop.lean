import ServingPlatform.PagedKv.PageWrites

namespace ServingPlatform.TorchPagedKVCache

variable {α : Type} {config : PagedKVConfig} {torch : Torch} {keys values : List (Tensor α)}
  {table : List BlockId} {start tokenCount sourceOffset : Nat}

/-- The places of the appended columns from `sourceOffset` on. -/
def AppendPlaces (config : PagedKVConfig) (table : List BlockId) (start tokenCount sourceOffset : Nat)
    (p : BlockId) (t : Nat) : Prop :=
  ∃ i, sourceOffset ≤ i ∧ i < tokenCount ∧ Paging.slot table config.blockSizeTokens (start + i) = some (p, t)

/-- How many columns the next page run takes. -/
def runLength (config : PagedKVConfig) (start tokenCount sourceOffset : Nat) : Nat :=
  min (tokenCount - sourceOffset) (config.blockSizeTokens - (start + sourceOffset) % config.blockSizeTokens)

theorem runLength_pos (config : PagedKVConfig) (start : Nat) (remaining : sourceOffset < tokenCount) :
    0 < runLength config start tokenCount sourceOffset := by
  have offset := Nat.mod_lt (start + sourceOffset) config.blockSizePositive
  unfold runLength
  omega

/-- Inside a page run the slot keeps its page and follows the source. -/
theorem slot_in_run {page : BlockId} {i : Nat}
    (atPage : table[(start + sourceOffset) / config.blockSizeTokens]? = some page) (lower : sourceOffset ≤ i)
    (upper : i < sourceOffset + runLength config start tokenCount sourceOffset) :
    Paging.slot table config.blockSizeTokens (start + i) =
      some (page, (start + sourceOffset) % config.blockSizeTokens + (i - sourceOffset)) := by
  have split : start + i = start + sourceOffset + (i - sourceOffset) := by omega
  unfold runLength at upper
  rw [split, Paging.slot_add (by omega), Paging.slot_eq_some_iff.mpr ⟨atPage, rfl⟩]
  rfl

/-- The loop ends, fails, or copies one page run and goes on behind it. -/
theorem writeTokens_cases (config : PagedKVConfig) (torch : Torch) (keys values : List (Tensor α))
    (table : List BlockId) (start tokenCount sourceOffset : Nat) (pools : PagePools α) :
    (tokenCount ≤ sourceOffset ∧
      writeTokens config torch keys values table start tokenCount sourceOffset pools = (.ok (), pools)) ∨
    (sourceOffset < tokenCount ∧ table[(start + sourceOffset) / config.blockSizeTokens]? = none ∧
      ∃ raised, writeTokens config torch keys values table start tokenCount sourceOffset pools =
        (.error raised, pools)) ∨
    ∃ page result after, sourceOffset < tokenCount ∧
      table[(start + sourceOffset) / config.blockSizeTokens]? = some page ∧
      copyLayers config torch keys values page ((start + sourceOffset) % config.blockSizeTokens) sourceOffset
        (runLength config start tokenCount sourceOffset) (List.range config.numLayers) pools = (result, after) ∧
      writeTokens config torch keys values table start tokenCount sourceOffset pools =
        match result with
        | .error raised => (.error raised, after)
        | .ok () => writeTokens config torch keys values table start tokenCount
            (sourceOffset + runLength config start tokenCount sourceOffset) after := by
  by_cases remaining : sourceOffset < tokenCount
  · refine Or.inr ?_
    cases atPage : table[(start + sourceOffset) / config.blockSizeTokens]? with
    | none =>
      refine Or.inl ⟨remaining, rfl, indexError "tuple index out of range", ?_⟩
      rw [writeTokens]
      simp only [remaining, if_true, atPage]
    | some page =>
      obtain ⟨result, after, run⟩ : ∃ result after, copyLayers config torch keys values page
          ((start + sourceOffset) % config.blockSizeTokens) sourceOffset
          (runLength config start tokenCount sourceOffset) (List.range config.numLayers) pools =
            (result, after) := ⟨_, _, rfl⟩
      refine Or.inr ⟨page, result, after, remaining, rfl, run, ?_⟩
      rw [writeTokens]
      simp only [remaining, if_true, atPage]
      unfold runLength at run ⊢
      rw [run]
      cases result <;> rfl
  · refine Or.inl ⟨Nat.le_of_not_lt remaining, ?_⟩
    rw [writeTokens, if_neg remaining]

theorem runPlaces_appendPlaces {page : BlockId} {p : BlockId} {t : Nat}
    (atPage : table[(start + sourceOffset) / config.blockSizeTokens]? = some page)
    (inRun : RunPlaces page ((start + sourceOffset) % config.blockSizeTokens)
      (runLength config start tokenCount sourceOffset) p t) :
    AppendPlaces config table start tokenCount sourceOffset p t := by
  obtain ⟨rfl, lower, upper⟩ := inRun
  have within : sourceOffset + (t - (start + sourceOffset) % config.blockSizeTokens) <
      sourceOffset + runLength config start tokenCount sourceOffset := by omega
  refine ⟨_, by omega, ?_, (slot_in_run atPage (Nat.le_add_right _ _) within).trans ?_⟩
  · unfold runLength at within
    omega
  · rw [Nat.add_sub_cancel_left, Nat.add_sub_cancel' lower]

/-- However the loop ends, it only touches the places of the appended columns. -/
theorem writeTokens_agree {pools after : PagePools α} {result : Except Raised Unit}
    (run : writeTokens config torch keys values table start tokenCount sourceOffset pools = (result, after)) :
    AgreeOutside config (AppendPlaces config table start tokenCount sourceOffset) pools after := by
  induction left : tokenCount - sourceOffset using Nat.strongRecOn generalizing sourceOffset pools with
  | ind left' ih =>
    subst left
    rcases writeTokens_cases config torch keys values table start tokenCount sourceOffset pools with
      ⟨-, done⟩ | ⟨-, -, raised, failed⟩ | ⟨page, copied, middle, remaining, atPage, copy, next⟩
    · cases run.symm.trans done
      exact .refl _ _
    · cases run.symm.trans failed
      exact .refl _ _
    · have first := (copyLayers_agree copy fun l member => List.mem_range.mp member).mono
        fun p t inRun => runPlaces_appendPlaces atPage inRun
      rw [next] at run
      cases copied with
      | error raised =>
        cases run
        exact first
      | ok done =>
        have progress := runLength_pos config start remaining
        refine first.trans ((ih _ (by omega) run rfl).mono fun p t place => ?_)
        obtain ⟨i, lower, upper, atSlot⟩ := place
        exact ⟨i, by omega, upper, atSlot⟩

/-- A loop that ends normally has written every appended column at its slot. -/
theorem writeTokens_written [Zero α] {pools after : PagePools α} (distinct : table.Nodup)
    (keyCount : keys.length = config.numLayers) (valueCount : values.length = config.numLayers)
    (run : writeTokens config torch keys values table start tokenCount sourceOffset pools = (.ok (), after)) :
    ∀ i, sourceOffset ≤ i → i < tokenCount → ∃ place,
      Paging.slot table config.blockSizeTokens (start + i) = some place ∧
        HoldsColumn config after place (columnAt keys values i) := by
  induction left : tokenCount - sourceOffset using Nat.strongRecOn generalizing sourceOffset pools with
  | ind left' ih =>
    subst left
    intro i lower upper
    rcases writeTokens_cases config torch keys values table start tokenCount sourceOffset pools with
      ⟨complete, -⟩ | ⟨-, -, raised, failed⟩ | ⟨page, copied, middle, remaining, atPage, copy, next⟩
    · omega
    · cases run.symm.trans failed
    · rw [next] at run
      cases copied with
      | error raised => cases run
      | ok done =>
        have progress := runLength_pos config start remaining
        by_cases inRun : i < sourceOffset + runLength config start tokenCount sourceOffset
        · have atSlot := slot_in_run atPage lower inRun
          refine ⟨_, atSlot, .of_agree (writeTokens_agree run) ?_ ?_⟩
          · rintro ⟨j, later, -, sameSlot⟩
            have := Paging.slot_injective distinct atSlot sameSlot
            omega
          · intro l h d layer head dim
            have atKey := List.getElem?_eq_getElem (keyCount.symm ▸ layer : l < keys.length)
            have atValue := List.getElem?_eq_getElem (valueCount.symm ▸ layer : l < values.length)
            have held := copyLayers_written (t := (start + sourceOffset) % config.blockSizeTokens +
              (i - sourceOffset)) copy atKey atValue head (by omega) (by omega) dim
              (Or.inl (List.mem_range.mpr layer))
            rw [Nat.add_sub_cancel_left, Nat.add_sub_cancel' lower] at held
            unfold columnAt
            simpa only [atKey, atValue, Option.elim_some] using held
        · exact ih _ (by omega) run rfl i (by omega) upper

/-- Over a table with room for them, columns of the checked shape are all copied. -/
theorem writeTokens_of_shape (torch : Torch) (sourceOffset : Nat) (pools : PagePools α)
    (shapes : ∀ tensor ∈ keys ++ values, tensor.shape = [config.numKvHeads, tokenCount, config.headDim])
    (keyCount : keys.length = config.numLayers) (valueCount : values.length = config.numLayers)
    (room : start + tokenCount ≤ table.length * config.blockSizeTokens) :
    ∃ after, writeTokens config torch keys values table start tokenCount sourceOffset pools =
      (.ok (), after) := by
  induction left : tokenCount - sourceOffset using Nat.strongRecOn generalizing sourceOffset pools with
  | ind left' ih =>
    subst left
    rcases writeTokens_cases config torch keys values table start tokenCount sourceOffset pools with
      ⟨-, done⟩ | ⟨remaining, missing, -⟩ | ⟨page, copied, middle, remaining, -, copy, next⟩
    · exact ⟨pools, done⟩
    · have index : (start + sourceOffset) / config.blockSizeTokens < table.length :=
        (Nat.div_lt_iff_lt_mul config.blockSizePositive).mpr (by omega)
      exact absurd missing (by simp [index])
    · have offset := Nat.mod_lt (start + sourceOffset) config.blockSizePositive
      have progress := runLength_pos config start remaining
      have inSource : sourceOffset + runLength config start tokenCount sourceOffset ≤ tokenCount := by
        unfold runLength
        omega
      have inPage : (start + sourceOffset) % config.blockSizeTokens +
          runLength config start tokenCount sourceOffset ≤ config.blockSizeTokens := by
        unfold runLength
        omega
      have inKeys : ∀ l ∈ List.range config.numLayers, l < keys.length :=
        fun l member => keyCount ▸ List.mem_range.mp member
      have inValues : ∀ l ∈ List.range config.numLayers, l < values.length :=
        fun l member => valueCount ▸ List.mem_range.mp member
      obtain ⟨given, complete⟩ := copyLayers_of_shape torch page pools shapes inKeys inValues inSource inPage
      rw [complete] at copy
      cases copy
      obtain ⟨after, rest⟩ := ih (tokenCount - (sourceOffset + runLength config start tokenCount sourceOffset))
        (by omega) _ middle rfl
      exact ⟨after, next.trans rest⟩

/-- A first key tensor of another rank is refused before anything is written. -/
theorem writeTokens_refused {key : Tensor α} {pools after : PagePools α} {result : Except Raised Unit}
    (first : keys[0]? = some key) (rank : key.shape.length ≠ 3)
    (run : writeTokens config torch keys values table start tokenCount 0 pools = (result, after)) :
    after = pools := by
  rcases writeTokens_cases config torch keys values table start tokenCount 0 pools with
    ⟨-, done⟩ | ⟨-, -, raised, failed⟩ | ⟨page, copied, middle, -, -, copy, next⟩
  · cases run.symm.trans done
    rfl
  · cases run.symm.trans failed
    rfl
  · obtain ⟨more, layers⟩ : ∃ more, List.range config.numLayers = 0 :: more := by
      obtain ⟨n, layers⟩ := Nat.exists_eq_succ_of_ne_zero (Nat.ne_of_gt config.layersPositive)
      exact ⟨_, by rw [layers, List.range_succ_eq_map]⟩
    have stopped : ∃ raised, copied = .error raised ∧ middle = pools := by
      rw [layers, copyLayers] at copy
      cases atValue : values[0]? with
      | none =>
        simp only [first, atValue] at copy
        cases copy
        exact ⟨_, rfl, rfl⟩
      | some value =>
        obtain ⟨raised, refused⟩ := copyColumns_of_rank config torch 0 page
          ((start + 0) % config.blockSizeTokens) 0 (runLength config start tokenCount 0) pools.keyPages rank
        simp only [first, atValue, refused] at copy
        cases copy
        exact ⟨_, rfl, rfl⟩
    obtain ⟨raised, rfl, rfl⟩ := stopped
    rw [next] at run
    cases run
    rfl

end ServingPlatform.TorchPagedKVCache
