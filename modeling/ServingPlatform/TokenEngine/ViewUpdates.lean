import ServingPlatform.TokenEngine.Views

namespace ServingPlatform

variable {S : Type}

/-- A record that tells nothing about the tokens of a sequence. -/
structure CallRecord.Silent (c : CallRecord S) : Prop where
  token : ∀ id, c.tokenFor id = none
  error : ∀ id, c.errorFor id = none
  submitted : c.submitted = 0
  resume : ¬ c.IsResume

namespace CallRecord.Silent

variable {sequences : List Ref}

theorem tokenize {prompt : String} {answer : TokenizedPrompt} :
    (⟨.direct (.tokenize prompt), sequences, .ok answer⟩ : CallRecord S).Silent :=
  ⟨fun _ => rfl, fun _ => rfl, rfl, fun ⟨_, _, _, _, _, _, same⟩ => by cases same⟩

theorem eosTokenIds {answer : List TokenId} :
    (⟨.direct .eosTokenIds, sequences, .ok answer⟩ : CallRecord S).Silent :=
  ⟨fun _ => rfl, fun _ => rfl, rfl, fun ⟨_, _, _, _, _, _, same⟩ => by cases same⟩

theorem snapshotPrefix {id : String} {answer : S} :
    (⟨.direct (.snapshotPrefix id), sequences, .ok answer⟩ : CallRecord S).Silent :=
  ⟨fun _ => rfl, fun _ => rfl, rfl, fun ⟨_, _, _, _, _, _, same⟩ => by cases same⟩

theorem releaseSequence {id : String} {result : Except Raised Unit} :
    (⟨.direct (.releaseSequence id), sequences, result⟩ : CallRecord S).Silent := by
  refine ⟨fun _ => ?_, fun _ => ?_, ?_, fun ⟨_, _, _, _, _, _, same⟩ => by cases same⟩ <;> cases result <;> rfl

end CallRecord.Silent

theorem Covered.of_suffix {earlier later : List (CallRecord S)} (suffix : earlier <:+ later) (covered : Covered later) :
    Covered earlier := by
  induction later with
  | nil => exact List.suffix_nil.mp suffix ▸ covered
  | cons c rest ih =>
    rcases List.suffix_cons_iff.mp suffix with rfl | shorter
    · exact covered
    · exact ih shorter covered.2.2

theorem Covered.proper {log : List (CallRecord S)} (covered : Covered log) {c : CallRecord S} (member : c ∈ log) :
    c.Proper := by
  induction log with
  | nil => cases member
  | cons d rest ih =>
    rcases List.mem_cons.mp member with rfl | later
    · exact covered.1
    · exact ih covered.2.2 later

theorem mem_answeredTokens {id : String} {records : List (CallRecord S)} {c : CallRecord S} {token : GeneratedToken}
    (member : c ∈ records) (answer : c.tokenFor id = some token) : token ∈ answeredTokens id records := by
  induction records with
  | nil => cases member
  | cons d rest ih =>
    rcases List.mem_cons.mp member with rfl | later
    · exact List.mem_append_right _ (by rw [answer]; exact List.mem_singleton_self _)
    · exact List.mem_append_left _ (ih later)

namespace RefView

variable {v v' : RefView S} {c : CallRecord S} {config : EngineConfig} {dimensions : KvDimensions}

def recorded (v : RefView S) (c : CallRecord S) : RefView S := { v with records := c :: v.records }

@[simp] theorem answered_recorded :
    (v.recorded c).answered = v.answered ++ (c.tokenFor v.sequence.state.requestId).toList := rfl

@[simp] theorem submitted_recorded : (v.recorded c).submitted = v.submitted + c.submitted := rfl

theorem Clean.recorded (clean : v.Clean) (harmless : c.errorFor v.sequence.state.requestId = none) :
    (v.recorded c).Clean := by
  intro d member
  rcases List.mem_cons.mp member with rfl | earlier
  · exact harmless
  · exact clean d earlier

theorem Clean.blames (clean : v.Clean) (error : Raised) : v.Blames error := Or.inl clean

theorem blames_recorded {error : Raised} (met : c.errorFor v.sequence.state.requestId = some error) :
    (v.recorded c).Blames error :=
  Or.inr ⟨c, List.mem_cons_self .., met⟩

/-- As long as no token was asked for, no prefix was resumed. -/
theorem unresumed_of_unanswered (unanswered : v.answered = []) (clean : v.Clean) : v.Unresumed := by
  rintro c member ⟨id, snapshot, suffix, parameters, sequences, result, rfl⟩
  cases result with
  | error error => cases (clean _ member).symm
  | ok token =>
    have answer := @mem_answeredTokens _ v.sequence.state.requestId _ _ _ member rfl
    rw [show answeredTokens _ _ = [] from unanswered] at answer
    cases answer

theorem Unresumed.recorded (unresumed : v.Unresumed) (other : ¬ c.IsResume) : (v.recorded c).Unresumed := by
  intro d member
  rcases List.mem_cons.mp member with rfl | earlier
  · exact other
  · exact unresumed d earlier

/-- Only silent calls were made in between. -/
inductive Noted (v : RefView S) : RefView S → Prop
  | refl : Noted v v
  | record {v' : RefView S} {c : CallRecord S} (noted : Noted v v') (silent : c.Silent) : Noted v (v'.recorded c)

namespace Noted

theorem shape (noted : Noted v v') : ∃ records, v' = { v with records := records ++ v.records } := by
  induction noted with
  | refl => exact ⟨[], rfl⟩
  | @record v' c _ _ ih =>
    obtain ⟨records, rfl⟩ := ih
    exact ⟨c :: records, rfl⟩

theorem answered (noted : Noted v v') : v'.answered = v.answered := by
  induction noted with
  | refl => rfl
  | record _ silent ih => rw [answered_recorded, silent.token, ih]; exact List.append_nil _

theorem submitted (noted : Noted v v') : v'.submitted = v.submitted := by
  induction noted with
  | refl => rfl
  | record _ silent ih => rw [submitted_recorded, silent.submitted, ih, Nat.add_zero]

theorem clean (noted : Noted v v') (clean : v.Clean) : v'.Clean := by
  induction noted with
  | refl => exact clean
  | record _ silent ih => exact ih.recorded (silent.error _)

theorem unresumed (noted : Noted v v') (unresumed : v.Unresumed) : v'.Unresumed := by
  induction noted with
  | refl => exact unresumed
  | record _ silent ih => exact ih.recorded silent.resume

theorem blames (noted : Noted v v') {error : Raised} (blames : v.Blames error) : v'.Blames error := by
  rcases blames with clean | ⟨c, member, met⟩
  · exact Or.inl (noted.clean clean)
  · obtain ⟨records, rfl⟩ := noted.shape
    exact Or.inr ⟨c, List.mem_append_right _ member, met⟩

theorem trans {v'' : RefView S} (first : Noted v v') (second : Noted v' v'') : Noted v v'' := by
  induction second with
  | refl => exact first
  | record _ silent ih => exact ih.record silent

theorem pending (noted : Noted v v') {token : GeneratedToken} (pending : v.Pending dimensions token) :
    v'.Pending dimensions token := by
  have answered := noted.answered
  have clean := noted.clean pending.clean
  obtain ⟨records, rfl⟩ := noted.shape
  exact ⟨pending.prompted, pending.backendCreated, answered ▸ pending.answered, pending.room, clean, pending.phase⟩

theorem prefilling (noted : Noted v v') {prompt : TokenizedPrompt} (prefilling : v.Prefilling config dimensions prompt) :
    v'.Prefilling config dimensions prompt := by
  have answered := noted.answered
  have submitted := noted.submitted
  have clean := noted.clean prefilling.clean
  obtain ⟨records, rfl⟩ := noted.shape
  refine ⟨⟨prefilling.tokenized, prefilling.promptTokenIds, prefilling.sized, prefilling.generated,
    answered.trans prefilling.answered, clean, submitted.trans prefilling.submitted, prefilling.whole, ?_⟩,
    prefilling.phase, prefilling.backendCreated⟩
  rcases prefilling.unfinished with short | ⟨bounded, c, member, rest⟩
  · exact Or.inl short
  · exact Or.inr ⟨bounded, c, List.mem_append_right _ member, rest⟩

end Noted

/-- Two views with the same tokens, in which no exception was met in between. -/
structure SameStory (v v' : RefView S) : Prop where
  generated : v'.generated = v.generated
  sampling : v'.sequence.state.sampling = v.sequence.state.sampling
  answered : v'.answered = v.answered
  clean : v.Clean → v'.Clean
  blames : ∀ error, v.Blames error → v'.Blames error

theorem SameStory.refl : v.SameStory v := ⟨rfl, rfl, rfl, fun clean => clean, fun _ blames => blames⟩

theorem SameStory.trans {v'' : RefView S} (first : v.SameStory v') (second : v'.SameStory v'') : v.SameStory v'' where
  generated := second.generated.trans first.generated
  sampling := second.sampling.trans first.sampling
  answered := second.answered.trans first.answered
  clean was := second.clean (first.clean was)
  blames error was := second.blames error (first.blames error was)

theorem Noted.sameStory (noted : v.Noted v') : v.SameStory v' := by
  have answered := noted.answered
  have clean := noted.clean
  have blames := fun error => @Noted.blames _ _ _ noted error
  obtain ⟨records, rfl⟩ := noted.shape
  exact ⟨rfl, rfl, answered, clean, blames⟩

theorem Prefilling.awaiting {prompt : TokenizedPrompt} (prefilling : v.Prefilling config dimensions prompt) :
    v.Awaiting dimensions where
  prompted := ⟨prompt, prefilling.tokenized, prefilling.promptTokenIds, prefilling.sized⟩
  backendCreated := prefilling.backendCreated
  accepted := by rw [prefilling.answered, prefilling.generated]; rfl
  room := by rw [prefilling.generated]; exact v.sequence.state.sampling.positive
  clean := prefilling.clean
  phase := Or.inl ⟨prefilling.phase, prefilling.generated⟩

/-- The answer to a call leaves its token to be accepted. -/
theorem Awaiting.pending (awaiting : v.Awaiting dimensions) {token : GeneratedToken}
    (answer : c.tokenFor v.sequence.state.requestId = some token)
    (harmless : c.errorFor v.sequence.state.requestId = none) : (v.recorded c).Pending dimensions token where
  prompted := awaiting.prompted
  backendCreated := awaiting.backendCreated
  answered := ⟨v.answered, by rw [answered_recorded, answer]; rfl, awaiting.accepted⟩
  room := awaiting.room
  clean := awaiting.clean.recorded harmless
  phase := awaiting.phase

theorem Extended.of_same {v₁ : RefView S} (extended : v₁.Extended dimensions v') (generated : v₁.generated = v.generated)
    (sampling : v₁.sequence.state.sampling = v.sequence.state.sampling) : v.Extended dimensions v' :=
  ⟨extended.decoding, generated ▸ extended.generated, extended.sampling.trans sampling⟩

theorem Settled.clean (settled : v.Settled config dimensions) : v.Clean := by
  rcases settled with fresh | ⟨prompt, prefilling⟩ | decoding
  · intro c member
    rw [fresh.records] at member
    cases member
  · exact prefilling.clean
  · exact decoding.clean

theorem Settled.room (settled : v.Settled config dimensions) : v.generated.length < v.limit := by
  rcases settled with fresh | ⟨prompt, prefilling⟩ | decoding
  · rw [fresh.generated]
    exact v.sequence.state.sampling.positive
  · exact prefilling.awaiting.room
  · exact decoding.room

theorem Settled.phase (settled : v.Settled config dimensions) : v.phase.isTerminal = false := by
  rcases settled with fresh | ⟨prompt, prefilling⟩ | decoding
  · rw [fresh.phase]
    rfl
  · rw [prefilling.phase]
    rfl
  · rw [decoding.decode]
    rfl

end RefView

end ServingPlatform
