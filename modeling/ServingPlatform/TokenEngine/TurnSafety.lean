import ServingPlatform.TokenEngine.BatchSafety
import ServingPlatform.TokenEngine.Decisions

namespace ServingPlatform.TokenGenerationEngine

open Shared

variable {S : Type} {backend : InferenceBackend S} {setup : EngineSetup} {t t' : Shared backend} {r : Ref}
  {P : RefView S → RefView S → Prop}

/-- The scheduler is at work, and no sequence is in the middle of a step. -/
structure Rested (setup : EngineSetup) (t : Shared backend) : Prop where
  live : t.Live setup
  settled : ∀ r, t.ActiveRef r → (t.view r).Settled setup.config setup.dimensions

theorem Rested.progress {R : Ref → Prop} (rested : Rested setup t) (progress : Progress setup R t t')
    (settles : ∀ r, R r → t'.ActiveRef r → (t'.view r).Settled setup.config setup.dimensions) : Rested setup t' := by
  refine ⟨progress.live, fun r active => ?_⟩
  by_cases inside : R r
  · exact settles r inside active
  · rcases progress.joined r active with before | ⟨-, fresh⟩
    · exact (progress.kept r before inside).2.symm ▸ rested.settled r before
    · exact Or.inl fresh

theorem Rested.rely (rested : Rested setup t) (rely : Rely setup t t') : Rested setup t' :=
  rested.progress rely.toProgress fun _ never => never.elim

theorem Rested.handled {R : Ref → Prop} (rested : Rested setup t) (handled : Handled setup P R t (.ok ()) t')
    (settles : ∀ r v, R r → P (t.view r) v → v.Settled setup.config setup.dimensions) : Rested setup t' :=
  rested.progress handled.1 fun r inside active => settles r _ inside (handled.2 r inside active)

theorem filed_of_live (live : t.Live setup) : t.engine.Filed := fun id r found => (live.sound.named id r found).1

theorem values_nodup (live : t.Live setup) : t.engine.active.values.Nodup := by
  refine .of_map t.engine.requestId ?_
  rw [(filed_of_live live).values_requestId]
  exact t.engine.active.nodup

theorem active_of_value (live : t.Live setup) (member : r ∈ t.engine.active.values) : t.ActiveRef r :=
  (filed_of_live live).get? member

section Interruption

theorem safe_finishIfInterrupted (live : t.Live setup) (active : t.ActiveRef r)
    (settled : (t.view r).Settled setup.config setup.dimensions) :
    SchedulerSafe setup (finishIfInterrupted r) (Handled setup (fun v v' => v' = v) (· = r) t) t := by
  have ends : ∀ {reason : FinishReason}, (reason.phase = .cancelled ∧ t.Cancelled r ∨
      (reason.phase = .completed ∨ reason.phase = .timedOut) ∧ ¬ t.Cancelled r) → t.ReasonHolds r reason →
      SchedulerSafe setup (complete r reason) (Handled setup (fun v v' => v' = v) (· = r) t) t := by
    intro reason may holds
    exact (safe_complete live active (Or.inr ⟨settled.phase, may⟩) settled.clean holds).mono
      fun result t' finished => finished.handled
  refine Coro.safe_bind.mpr (safe_checkInterruption ?_ ?_ ?_)
  · exact fun cancelled => ends (Or.inl ⟨rfl, cancelled⟩) settled.room
  · exact fun notCancelled => ends (Or.inr ⟨Or.inr rfl, notCancelled⟩) settled.room
  · exact fun _ => ⟨.refl live, fun _ _ _ => rfl⟩

theorem safe_finishInterrupted {batch : List Ref} (nodup : batch.Nodup) (live : t.Live setup)
    (active : ∀ r ∈ batch, t.ActiveRef r)
    (settled : ∀ r ∈ batch, (t.view r).Settled setup.config setup.dimensions) :
    SchedulerSafe setup (finishInterrupted batch) (Handled setup (fun v v' => v' = v) (· ∈ batch) t) t := by
  refine safe_loop (fun t r => (t.view r).Settled setup.config setup.dimensions) rfl (fun _ _ => rfl) ?_ ?_ nodup live
    active settled
  · intro t t' r r' live active progress differ settled
    exact (progress.kept r' active differ).2.symm ▸ settled
  · intro t r live active settled
    exact safe_finishIfInterrupted live active settled

end Interruption

section Decode

theorem decoding_of_phase {v : RefView S} (settled : v.Settled setup.config setup.dimensions)
    (phase : v.phase = .decode) : v.Decoding setup.dimensions := by
  rcases settled with fresh | ⟨prompt, prefilling⟩ | decoding
  · cases fresh.phase.symm.trans phase
  · cases prefilling.phase.symm.trans phase
  · exact decoding

/-- The sequences of a decode decision are decoded once, or fail. -/
theorem safe_runDecode (rested : Rested setup t) {ids : List String}
    (picks : t.engine.Picks (fun phase => phase = .decode) ids)
    (equal : ∃ length, ∀ id ∈ ids, t.engine.cacheTokensOf id = length) :
    SchedulerSafe setup (runDecode ids)
      (Handled setup (·.Extended setup.dimensions) (· ∈ ids.filterMap t.engine.active.get?) t) t := by
  have live := rested.live
  have filed : t.engine.Filed := filed_of_live live
  refine Coro.safe_read.mpr ?_
  dsimp only [Shared.window]
  generalize gathered : ids.filterMap t.engine.active.get? = batch
  have nodup : batch.Nodup := gathered ▸ picks.nodup_refs filed
  have member : ∀ r ∈ batch, ∃ id ∈ ids, t.engine.active.get? id = some r := by
    intro r listed
    rw [← gathered] at listed
    exact List.mem_filterMap.mp listed
  have active : ∀ r ∈ batch, t.ActiveRef r := by
    intro r listed
    obtain ⟨id, -, found⟩ := member r listed
    rw [ActiveRef, filed id r found]
    exact found
  have decoding : ∀ r ∈ batch, (t.view r).Decoding setup.dimensions := by
    intro r listed
    obtain ⟨id, picked, found⟩ := member r listed
    obtain ⟨r', found', phase⟩ := picks.found id picked
    cases found.symm.trans found'
    exact decoding_of_phase (rested.settled r (active r listed)) (of_decide_eq_true phase)
  refine Coro.safe_ite (fun some => ?_) fun none => ?_
  · have guard : t.DecodeGuard batch (batch.map (decodeRequest t.engine)) := by
      refine ⟨nodup, ?_, ?_⟩
      · obtain ⟨length, shared⟩ := equal
        refine ⟨length, fun r listed => ?_⟩
        obtain ⟨id, picked, found⟩ := member r listed
        have told := shared id picked
        rw [Engine.cacheTokensOf, found] at told
        exact told
      · rw [List.forall₂_map_right_iff, List.forall₂_same]
        intro r listed
        rw [live.sound.dimensions]
        exact ⟨active r listed, decoding r listed, rfl, rfl⟩
    have named : ∀ r ∈ batch,
        t.engine.requestId r ∈ (batch.map (decodeRequest t.engine)).map DecodeRequest.sequenceId := by
      intro r listed
      rw [List.map_map]
      exact List.mem_map_of_mem listed
    have awaiting : ∀ r ∈ batch, (t.view r).Awaiting setup.dimensions := fun r listed => (decoding r listed).toAwaiting
    refine Coro.safe_ite (fun _ => ?_) fun _ => ?_
    · exact safe_runBatch (.decodeBatch _) (fun size e => .countDecode size) (fun elapsed r e => .addDecodeTime r elapsed)
        some nodup live (.decodeBatch guard) awaiting named fun _ _ set => by cases set
    · exact safe_runBatch (.decodeFallback _) (fun size e => .countDecode size)
        (fun elapsed r e => .addDecodeTime r elapsed) some nodup live (.decodeFallback guard) awaiting named
        fun _ _ set => by cases set
  · rw [not_not.mp none]
    exact .none live fun r => List.not_mem_nil

end Decode

end ServingPlatform.TokenGenerationEngine
