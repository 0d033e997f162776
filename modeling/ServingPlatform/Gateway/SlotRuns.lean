import ServingPlatform.Gateway.SlotAdmissions

namespace ServingPlatform

open Scheduling

variable {S : Type} {backend : InferenceBackend S}

namespace Gateway

variable {settings : GatewaySettings} {g g' : Gateway backend} {h h' : Handler} {i : Nat} {l l' : List String}

/-- Whatever is reserved belongs to a handler, and agrees with the handler's
place; `l` lists the streams that were given up. -/
structure Sheltered (g : Gateway backend) (l : List String) : Prop where
  reserves : g.Reserves
  draining : ∀ c, g.engine = some c → c.Draining
  stored : ∀ h ∈ g.handlers, g.platformRequests.contains h.requestId = true
  owned : ∀ c id r, g.engine = some c → c.shared.engine.active.get? id = some r → ∃ h ∈ g.handlers, h.requestId = id
  keeps : ∀ h ∈ g.handlers, g.Keeps h (h.requestId ∈ l)

namespace Sheltered

theorem mono (s : g.Sheltered l) (more : ∀ id ∈ l, id ∈ l') : g.Sheltered l' :=
  ⟨s.reserves, s.draining, s.stored, s.owned, fun h member => Reserved.mono (s.keeps h member) fun _ _ given =>
    given.mono (more _) id⟩

theorem drained (s : g.Sheltered l) (drains : g.Drains g') : g'.Sheltered l := by
  refine ⟨fun c' runs => ?_, fun c' runs => ?_, fun h member => ?_, fun c' id r runs found => ?_, fun h member c' r runs found => ?_⟩
  · obtain ⟨c, runs, drains, -⟩ := drains.engine c' runs
    exact drains.reserves (s.reserves c runs)
  · obtain ⟨c, runs, -, draining⟩ := drains.engine c' runs
    exact draining (s.draining c runs)
  · rw [drains.handlers] at member
    exact drains.stored _ (s.stored h member)
  · obtain ⟨c, runs, less, -⟩ := drains.engine c' runs
    rw [drains.handlers]
    exact s.owned c id r runs (less.active id r found)
  · obtain ⟨c, runs, less, -⟩ := drains.engine c' runs
    rw [drains.handlers] at member
    exact (s.keeps h member c r runs (less.active _ r found)).mono id (less.cancellation r)

/-- A handler moves. -/
theorem shifted (s : g.Sheltered l) (found : g.handlers[i]? = some h) (shifts : Shifts (h.requestId ∈ l) g h h' g') :
    Sheltered { g' with handlers := g'.handlers.set i h' } l := by
  have after := s.drained shifts.eases.drains
  have before : g'.handlers[i]? = some h := by
    rw [shifts.eases.handlers]
    exact found
  have member : h ∈ g'.handlers := List.mem_of_getElem? before
  refine ⟨after.reserves, after.draining, fun k here => ?_, fun c id r runs active => ?_, fun k here => ?_⟩
  · rcases List.mem_or_eq_of_mem_set here with old | rfl
    · exact after.stored k old
    · rw [shifts.requestId]
      exact after.stored h member
  · obtain ⟨k, owner, same⟩ := after.owned c id r runs active
    obtain ⟨j, there⟩ := List.mem_iff_getElem?.mp owner
    by_cases here : j = i
    · rw [here, before] at there
      cases there
      exact ⟨h', List.mem_set (List.getElem?_eq_some_iff.mp before).1 h', shifts.requestId.trans same⟩
    · exact ⟨k, mem_set_of_ne here there, same⟩
  · rcases List.mem_or_eq_of_mem_set here with old | rfl
    · exact after.keeps k old
    · rw [shifts.requestId]
      exact shifts.keeps

/-- A handler is new. -/
theorem entered (s : g.Sheltered l) (enters : Enters g h g') : g'.Sheltered l := by
  have member : ∀ {k : Handler}, k ∈ g'.handlers → k ∈ g.handlers ∨ k = h := by
    intro k here
    rw [enters.handlers] at here
    exact (List.mem_append.mp here).imp id List.mem_singleton.mp
  have known : ∀ k ∈ g.handlers, k.requestId ≠ h.requestId := by
    intro k old same
    have stored := s.stored k old
    rw [same, enters.fresh] at stored
    cases stored
  refine ⟨fun c' runs => ?_, fun c' runs => ?_, fun k here => ?_, fun c' id r runs found => ?_, fun k here c' r runs found => ?_⟩
  · obtain ⟨c, runs, -, admits⟩ := enters.engine c' runs
    exact (admits (s.reserves c runs)).1
  · obtain ⟨c, runs, draining, -⟩ := enters.engine c' runs
    exact draining (s.draining c runs)
  · rcases member here with old | rfl
    · exact enters.stored _ (s.stored k old)
    · exact enters.known
  · obtain ⟨c, runs, -, admits⟩ := enters.engine c' runs
    rw [enters.handlers]
    rcases (admits (s.reserves c runs)).2 id r found with ⟨own, -⟩ | ⟨there, -⟩
    · exact ⟨h, List.mem_append_right _ List.mem_cons_self, own.symm⟩
    · obtain ⟨k, old, same⟩ := s.owned c id r runs there
      exact ⟨k, List.mem_append_left _ old, same⟩
  · obtain ⟨c, runs, -, admits⟩ := enters.engine c' runs
    rcases (admits (s.reserves c runs)).2 _ r found with ⟨own, begun⟩ | ⟨there, kept⟩
    · rcases member here with old | rfl
      · exact (known k old own).elim
      · rw [begun]
        trivial
    · rcases member here with old | rfl
      · exact (s.keeps k old c r runs there).mono id kept
      · obtain ⟨k, old, same⟩ := s.owned c _ r runs there
        exact (known k old same).elim

/-- A fresh gateway has reserved nothing. -/
theorem start (fresh : g.Fresh) (engine : ∀ c, g.engine = some c → ∃ setup, c = .initial backend setup) : g.Sheltered l := by
  have nobody : ∀ h ∈ g.handlers, False := by
    intro h member
    rw [fresh.handlers] at member
    cases member
  refine ⟨fun c runs => ?_, fun c runs => ?_, fun h member => (nobody h member).elim, fun c id r runs found => ?_,
    fun h member => (nobody h member).elim⟩
  · obtain ⟨setup, rfl⟩ := engine c runs
    exact .initial setup
  · obtain ⟨setup, rfl⟩ := engine c runs
    exact ⟨trivial, fun client impossible => by cases impossible⟩
  · obtain ⟨setup, rfl⟩ := engine c runs
    cases found

end Sheltered

/-- What is done apart from handlers and new requests gives reservations back at most. -/
theorem act_drains {action : GatewayAction} (apart : action = .close ∨ (∃ resumption, action = .schedule resumption) ∨
    action = .interruptScheduler ∨ ∃ requestId tenantId, action = .cancelRequest requestId tenantId)
    (acts : g.act settings action = some g') : g.Drains g' := by
  have scheduled : ∀ {action : SchedulerAction}, g.onScheduler settings action = some g' → g.Drains g' := by
    intro action run
    obtain ⟨scheduler, -, rfl⟩ := Option.map_eq_some_iff.mp run
    exact ⟨rfl, fun _ known => known, fun c runs => ⟨c, runs, .refl _, id⟩⟩
  rcases apart with rfl | ⟨resumption, rfl⟩ | rfl | ⟨requestId, tenantId, rfl⟩
  · exact scheduled acts
  · exact scheduled acts
  · simp only [Gateway.act] at acts
    split at acts
    · cases acts
    · exact scheduled acts
  · simp only [Gateway.act] at acts
    split at acts <;> cases acts
    exact (cancelRequest_eases g requestId tenantId).drains

end Gateway

section Counting

variable {α : Type} {xs : List α} {x : α} {i : Nat}

theorem countP_eraseIdx_of_getElem? (found : xs[i]? = some x) (p : α → Bool) : (xs.eraseIdx i).countP p + (p x).toNat = xs.countP p := by
  obtain ⟨bound, rfl⟩ := List.getElem?_eq_some_iff.mp found
  rw [← (List.getElem_cons_eraseIdx_perm bound).countP_eq, List.countP_cons]
  cases p xs[i] <;> rfl

theorem countP_set_of_getElem? (found : xs[i]? = some x) (y : α) (p : α → Bool) :
    (xs.set i y).countP p + (p x).toNat = xs.countP p + (p y).toNat := by
  have erased := countP_eraseIdx_of_getElem? found p
  have replaced : (xs.set i y).countP p = (xs.eraseIdx i).countP p + (p y).toNat := by
    rw [(List.set_perm_cons_eraseIdx (List.getElem?_eq_some_iff.mp found).1 y).countP_eq, List.countP_cons]
    cases p y <;> rfl
  omega

end Counting

namespace AppState

variable {settings : GatewaySettings} {a a' : AppState backend} {n m i : Nat} {h h' : Handler}

/-- The requests that have a slot of the limiter and have not given it back. -/
def inProgress (a : AppState backend) : Nat := a.calls.length + a.gateway.handlers.countP fun h => h.place.holds

/-- The streams among them. -/
def streamsInProgress (a : AppState backend) : Nat :=
  a.calls.countP (·.streams) + a.gateway.handlers.countP fun h => h.place.streams

/-- The limits stand at some counts, and nothing was released without a slot. -/
structure Balanced (a : AppState backend) (n m : Nat) : Prop where
  limiter : a.limiter.active = n
  streamTracker : a.streamTracker.active = m
  misuses : a.misuses = []

/-- Only the limits have changed. -/
structure Keeps (a a' : AppState backend) : Prop where
  gateway : a'.gateway = a.gateway
  calls : a'.calls = a.calls
  givenUp : a'.givenUp = a.givenUp

theorem release_balanced (b : a.Balanced (n + 1) m) : ∃ a', a.release = (.ok (), a') ∧ a'.Balanced n m ∧ a.Keeps a' := by
  have positive : ¬a.limiter.active ≤ 0 := by
    rw [b.limiter]
    omega
  have left : a.limiter.active - 1 = n := by
    rw [b.limiter]
    omega
  unfold release ConcurrencyLimiter.release
  rw [if_neg positive]
  exact ⟨_, rfl, ⟨left, b.streamTracker, b.misuses⟩, rfl, rfl, rfl⟩

theorem finish_balanced (b : a.Balanced n (m + 1)) : ∃ a', a.finish = (.ok (), a') ∧ a'.Balanced n m ∧ a.Keeps a' := by
  have positive : ¬a.streamTracker.active ≤ 0 := by
    rw [b.streamTracker]
    omega
  have left : a.streamTracker.active - 1 = m := by
    rw [b.streamTracker]
    omega
  unfold finish StreamTracker.finish
  rw [if_neg positive]
  exact ⟨_, rfl, ⟨b.limiter, left, b.misuses⟩, rfl, rfl, rfl⟩

theorem giveBack_balanced (b : a.Balanced (n + 1) (m + 1)) : ∃ a', a.giveBack = (.ok (), a') ∧ a'.Balanced n m ∧ a.Keeps a' := by
  obtain ⟨a₁, releases, b₁, gateway, calls, givenUp⟩ := release_balanced b
  obtain ⟨a₂, finishes, b₂, gateway', calls', givenUp'⟩ := finish_balanced b₁
  refine ⟨a₂, ?_, b₂, gateway'.trans gateway, calls'.trans calls, givenUp'.trans givenUp⟩
  unfold giveBack
  rw [releases]
  exact finishes

/-- The limits count the requests in progress, and what is reserved agrees with them. -/
structure Slotted (a : AppState backend) : Prop where
  counted : a.Balanced a.inProgress a.streamsInProgress
  sheltered : a.gateway.Sheltered a.givenUp

namespace Slotted

theorem of_keeps (b : a'.Balanced a.inProgress a.streamsInProgress) (sheltered : a.gateway.Sheltered a.givenUp) (keeps : a.Keeps a') :
    a'.Slotted := by
  refine ⟨?_, ?_⟩
  · unfold inProgress streamsInProgress
    rw [keeps.gateway, keeps.calls]
    exact b
  · rw [keeps.gateway, keeps.givenUp]
    exact sheltered

/-- The gateway has changed, but for its handlers. -/
theorem drained (s : a.Slotted) {g : Gateway backend} (drains : a.gateway.Drains g) : Slotted { a with gateway := g } := by
  refine ⟨⟨?_, ?_, s.counted.misuses⟩, s.sheltered.drained drains⟩
  · unfold inProgress
    dsimp only
    rw [drains.handlers]
    exact s.counted.limiter
  · unfold streamsInProgress
    dsimp only
    rw [drains.handlers]
    exact s.counted.streamTracker

section Calls

variable {call : PendingCall} {g : Gateway backend}

/-- A call is over, whose slots are not given back yet. -/
theorem left (s : a.Slotted) (found : a.calls[i]? = some call) (same : g.handlers = a.gateway.handlers) :
    (a.leaveCall i g).Balanced ((a.leaveCall i g).inProgress + 1) ((a.leaveCall i g).streamsInProgress + call.streams.toNat) := by
  have fewer : (a.calls.eraseIdx i).length + 1 = a.calls.length := by
    have bound := (List.getElem?_eq_some_iff.mp found).1
    rw [List.length_eraseIdx_of_lt bound]
    omega
  have streams := countP_eraseIdx_of_getElem? found (·.streams)
  have limiter := s.counted.limiter
  have streamTracker := s.counted.streamTracker
  unfold inProgress at limiter
  unfold streamsInProgress at streamTracker
  refine ⟨?_, ?_, s.counted.misuses⟩
  · unfold inProgress leaveCall
    dsimp only
    rw [limiter, same]
    omega
  · unfold streamsInProgress leaveCall
    dsimp only
    rw [streamTracker, same]
    omega

theorem refused (s : a.Slotted) (found : a.calls[i]? = some call) (streams : call.streams = false) (drains : a.gateway.Drains g) :
    ((a.leaveCall i g).release).2.Slotted := by
  have b := s.left found drains.handlers
  rw [streams, Bool.toNat_false, Nat.add_zero] at b
  obtain ⟨a', releases, after, keeps⟩ := release_balanced b
  rw [releases]
  exact .of_keeps after (s.sheltered.drained drains) keeps

theorem refusedStream (s : a.Slotted) (found : a.calls[i]? = some call) (streams : call.streams = true)
    (drains : a.gateway.Drains g) : ((a.leaveCall i g).giveBack).2.Slotted := by
  have b := s.left found drains.handlers
  rw [streams, Bool.toNat_true] at b
  obtain ⟨a', gives, after, keeps⟩ := giveBack_balanced b
  rw [gives]
  exact .of_keeps after (s.sheltered.drained drains) keeps

/-- A call is over, and its slots go to a handler. -/
theorem admitted (s : a.Slotted) (found : a.calls[i]? = some call) (enters : Gateway.Enters a.gateway h g)
    (holds : h.place.holds = true) (streams : h.place.streams = call.streams) : (a.leaveCall i g).Slotted := by
  have b := s.left (g := a.gateway) found rfl
  have more : (a.leaveCall i g).inProgress = (a.leaveCall i a.gateway).inProgress + 1 := by
    unfold inProgress leaveCall
    dsimp only
    rw [enters.handlers, List.countP_append, List.countP_singleton, holds, if_pos rfl]
    omega
  have moreStreams : (a.leaveCall i g).streamsInProgress = (a.leaveCall i a.gateway).streamsInProgress + call.streams.toNat := by
    unfold streamsInProgress leaveCall
    dsimp only
    rw [enters.handlers, List.countP_append, List.countP_singleton, streams]
    cases call.streams <;> rfl
  refine ⟨?_, s.sheltered.entered enters⟩
  rw [more, moreStreams]
  exact ⟨b.limiter, b.streamTracker, b.misuses⟩

end Calls

section Handlers

theorem holds_of_streams {place : HandlerPlace} (streams : place.streams = true) : place.holds = true := by
  cases place <;> first | rfl | cases streams

/-- What a handler's move gives back is what it had. -/
theorem settled (s : a.Slotted) (found : a.gateway.handlers[i]? = some h) {g : Gateway backend} (same : g.handlers = a.gateway.handlers)
    (passes : h.place.Passes h'.place) : ∃ a', { a with gateway := g }.settle h.place h' = (h', a') ∧
      AppState.Keeps { a with gateway := g } a' ∧ a'.Balanced (a.calls.length + (g.handlers.set i h').countP fun h => h.place.holds)
        (a.calls.countP (·.streams) + (g.handlers.set i h').countP fun h => h.place.streams) := by
  have holding := countP_set_of_getElem? found h' fun h => h.place.holds
  have streaming := countP_set_of_getElem? found h' fun h => h.place.streams
  have limiter := s.counted.limiter
  have streamTracker := s.counted.streamTracker
  unfold inProgress at limiter
  unfold streamsInProgress at streamTracker
  rw [same]
  generalize (a.gateway.handlers.set i h').countP (fun h => h.place.holds) = n' at holding ⊢
  generalize (a.gateway.handlers.set i h').countP (fun h => h.place.streams) = m' at streaming ⊢
  generalize here : h.place = place at passes holding streaming
  generalize there : h'.place = place' at passes holding streaming
  unfold settle
  rw [there]
  cases passes with
  | answered =>
    have b : Balanced { a with gateway := g } (a.calls.length + n' + 1) (a.calls.countP (·.streams) + m') := by
      refine ⟨?_, ?_, s.counted.misuses⟩
      · change _ + 1 = _ + 0 at holding
        dsimp only
        omega
      · change _ + 0 = _ + 0 at streaming
        dsimp only
        omega
    obtain ⟨a', releases, after, keeps⟩ := release_balanced b
    refine ⟨a', ?_, keeps, after⟩
    dsimp only
    rw [releases]
  | returned =>
    refine ⟨_, rfl, ⟨rfl, rfl, rfl⟩, ?_, ?_, s.counted.misuses⟩
    · change _ + 0 = _ + 0 at holding
      dsimp only
      omega
    · change _ + 0 = _ + 0 at streaming
      dsimp only
      omega
  | goes streamed streams =>
    rw [streamed, streams] at streaming
    rw [holds_of_streams streamed, holds_of_streams streams] at holding
    have b : Balanced { a with gateway := g } (a.calls.length + n') (a.calls.countP (·.streams) + m') := by
      refine ⟨?_, ?_, s.counted.misuses⟩
      · dsimp only
        omega
      · dsimp only
        omega
    refine ⟨_, ?_, ⟨rfl, rfl, rfl⟩, b⟩
    split
    · cases streamed
    · cases streamed
    · cases streams
    · rfl
  | leaves streamed =>
    have b : Balanced { a with gateway := g } (a.calls.length + n' + 1) (a.calls.countP (·.streams) + m' + 1) := by
      rw [streamed] at streaming
      rw [holds_of_streams streamed] at holding
      refine ⟨?_, ?_, s.counted.misuses⟩
      · change _ + 1 = _ + 0 at holding
        dsimp only
        omega
      · change _ + 1 = _ + 0 at streaming
        dsimp only
        omega
    obtain ⟨a', gives, after, keeps⟩ := giveBack_balanced b
    refine ⟨a', ?_, keeps, after⟩
    cases place with
    | waiting => cases streamed
    | releasing _ => cases streamed
    | ended _ => cases streamed
    | _ =>
      dsimp only
      rw [gives]

/-- A handler's move, by which what is reserved for it stays in order. -/
theorem handled (s : a.Slotted) {go : Handler → Option (Handler × Gateway backend)}
    (shifts : ∀ h h' g, a.gateway.handlers[i]? = some h → go h = some (h', g) →
      Gateway.Shifts (h.requestId ∈ a.givenUp) a.gateway h h' g) (run : a.handle i go = some a') : a'.Slotted := by
  obtain ⟨h, found, run⟩ := Option.bind_eq_some_iff.mp run
  obtain ⟨⟨h', g⟩, goes, run⟩ := Option.bind_eq_some_iff.mp run
  have shifts := shifts h h' g found goes
  obtain ⟨a₁, settles, keeps, b⟩ := s.settled found shifts.eases.handlers shifts.passes
  dsimp only at run
  rw [settles] at run
  cases run
  have sheltered := s.sheltered.shifted found shifts
  refine ⟨?_, ?_⟩
  · unfold inProgress streamsInProgress
    dsimp only
    rw [keeps.gateway, keeps.calls]
    exact ⟨b.limiter, b.streamTracker, b.misuses⟩
  · dsimp only
    rw [keeps.gateway, keeps.givenUp]
    exact sheltered

/-- A stream is given up. -/
theorem noting (s : a.Slotted) (givesUp : HandlerPlace → Bool) : (a.noting i givesUp).Slotted ∧
    (a.noting i givesUp).gateway = a.gateway ∧ ∀ h, a.gateway.handlers[i]? = some h → givesUp h.place = true →
      h.requestId ∈ (a.noting i givesUp).givenUp := by
  unfold AppState.noting
  split
  · rename_i nobody
    exact ⟨s, rfl, fun h found => by rw [nobody] at found; cases found⟩
  · rename_i h found
    split
    · refine ⟨⟨⟨s.counted.limiter, s.counted.streamTracker, s.counted.misuses⟩, s.sheltered.mono fun id => List.mem_cons_of_mem _⟩, rfl,
        fun k here _ => ?_⟩
      cases found.symm.trans here
      exact List.mem_cons_self
    · rename_i stays
      exact ⟨s, rfl, fun k here gives => by cases found.symm.trans here; exact (stays gives).elim⟩

end Handlers

end Slotted

/-- No response body is dropped before it begins, and the record of a stream can
be made and stored. -/
def Serves (settings : GatewaySettings) (a : AppState backend) : AppAction → Prop
  | .validated call (.ok tokens) requestId => ∀ body sampling tenantId, a.calls[call]? = some (.validating body sampling tenantId) →
      a.gateway.engine = none → a.gateway.Records settings body requestId tenantId tokens
  | .checked call (.ok ()) requestId => ∀ body sampling tenantId tokens,
      a.calls[call]? = some (.checking body sampling tenantId tokens) → a.gateway.Records settings body requestId tenantId tokens
  | .abandon handler _ => ∀ h, a.gateway.handlers[handler]? = some h → h.place ≠ .unstarted
  | _ => True

/-- The limits count the requests in progress, what is reserved belongs to a
stream in progress or to one that was given up and is cancelled, blocks are held
for reservations only, and nothing was released without a slot. -/
structure SlotsConserved (a : AppState backend) : Prop where
  limiter : a.limiter.active = a.inProgress
  streamTracker : a.streamTracker.active = a.streamsInProgress
  reservations : ∀ c requestId r, a.gateway.engine = some c → c.shared.engine.active.get? requestId = some r →
    (∃ h ∈ a.gateway.handlers, h.requestId = requestId ∧ h.place.streams = true) ∨
      requestId ∈ a.givenUp ∧ (c.shared.engine.sequences r).state.cancellation = true
  blocks : ∀ c requestId, a.gateway.engine = some c → (c.shared.engine.kvAllocator.owners.get? requestId).isSome = true →
    (c.shared.engine.active.get? requestId).isSome = true
  misuses : a.misuses = []

namespace Slotted

theorem conserved (s : a.Slotted) : a.SlotsConserved := by
  refine ⟨s.counted.limiter, s.counted.streamTracker, fun c requestId r runs found => ?_,
    fun c requestId runs => (s.sheltered.reserves c runs).owned requestId, s.counted.misuses⟩
  obtain ⟨h, member, rfl⟩ := s.sheltered.owned c requestId r runs found
  have keeps := s.sheltered.keeps h member c r runs found
  cases streams : h.place.streams with
  | true => exact Or.inl ⟨h, member, rfl, streams⟩
  | false =>
    right
    generalize h.place = place at keeps streams
    cases place with
    | waiting => exact keeps.elim
    | releasing result => exact keeps
    | ended result => exact keeps
    | _ => cases streams

theorem start (fresh : a.Fresh) : a.Slotted := by
  refine ⟨⟨?_, ?_, fresh.misuses⟩, .start fresh.gateway fresh.engine⟩
  · unfold inProgress
    rw [fresh.limiter, fresh.calls, fresh.gateway.handlers]
    rfl
  · unfold streamsInProgress
    rw [fresh.streamTracker, fresh.calls, fresh.gateway.handlers]
    rfl

/-- A stream after its validation. -/
theorem generateStream (s : a.Slotted) {call : PendingCall} (found : a.calls[i]? = some call) (streams : call.streams = true)
    {body : GenerateRequest} (sampling : SamplingParameters) {requestId tenantId : String} {tokens : Int}
    (records : a.gateway.Records settings body requestId tenantId tokens) :
    (a.generateStream settings i body sampling requestId tenantId tokens).Slotted := by
  unfold AppState.generateStream
  dsimp only
  rcases Gateway.generateStream_cases records sampling with ⟨raised, refused, drains⟩ | ⟨reserved, h, place, enters⟩
  · rw [refused]
    exact s.refusedStream found streams drains
  · rw [reserved]
    refine s.admitted found enters ?_ ?_
    · rw [place]
      rfl
    · rw [place, streams]
      rfl

theorem generate (s : a.Slotted) {body : GenerateRequest} {tenantId : String} (found : a.calls[i]? = some (.generate body tenantId))
    (requestId : String) (tokens : Int) : (a.generate settings i body requestId tenantId tokens).Slotted := by
  unfold AppState.generate
  rcases a.gateway.generate_cases settings body requestId tenantId tokens with
    ⟨raised, g, run, eases⟩ | ⟨g, h, run, enters, place⟩
  · rw [run]
    exact s.refused found rfl eases.drains
  · rw [run]
    refine s.admitted found enters ?_ ?_
    · rw [place]
      rfl
    · rw [place]
      rfl

theorem validated (s : a.Slotted) {call : PendingCall} (found : a.calls[i]? = some call) {result : Except Raised Int} {requestId : String}
    (serves : Serves settings a (.validated i result requestId)) (run : a.validated settings i result requestId call = some a') :
    a'.Slotted := by
  cases call with
  | generate body tenantId =>
    cases result with
    | error raised =>
      cases run
      exact s.refused found rfl (Gateway.Eases.refl _).drains
    | ok tokens =>
      cases run
      exact s.generate found requestId tokens
  | validating body sampling tenantId =>
    cases result with
    | error raised =>
      cases run
      exact s.refusedStream found rfl (Gateway.Eases.refl _).drains
    | ok tokens =>
      simp only [AppState.validated] at run
      split at run
      · cases run
        have same := countP_set_of_getElem? found (.checking body sampling tenantId tokens) (·.streams)
        refine ⟨⟨?_, ?_, s.counted.misuses⟩, s.sheltered⟩
        · unfold inProgress
          dsimp only
          rw [List.length_set]
          exact s.counted.limiter
        · unfold streamsInProgress
          dsimp only
          rw [Nat.add_right_cancel same]
          exact s.counted.streamTracker
      · rename_i absent
        cases run
        exact s.generateStream found rfl sampling (serves body sampling tenantId found (by simpa using absent))
  | checking body sampling tenantId tokens => cases run

theorem checked (s : a.Slotted) {call : PendingCall} (found : a.calls[i]? = some call) {result : Except Raised Unit} {requestId : String}
    (serves : Serves settings a (.checked i result requestId)) (run : a.checked settings i result requestId call = some a') :
    a'.Slotted := by
  cases call with
  | generate body tenantId => cases run
  | validating body sampling tenantId => cases run
  | checking body sampling tenantId tokens =>
    cases result with
    | error raised =>
      cases run
      exact s.refusedStream found rfl (Gateway.Eases.refl _).drains
    | ok _ =>
      cases run
      exact s.generateStream found rfl sampling (serves body sampling tenantId tokens found)

theorem arrive (s : a.Slotted) (body : GenerateRequest) (tenantId : String) : (a.arrive body tenantId).Slotted := by
  unfold AppState.arrive ConcurrencyLimiter.acquire
  split
  · rename_i limiter acquires
    split at acquires <;> cases acquires
    refine ⟨⟨?_, ?_, s.counted.misuses⟩, s.sheltered⟩
    · have limiter := s.counted.limiter
      unfold inProgress at limiter ⊢
      dsimp only
      rw [List.length_append, List.length_singleton]
      omega
    · have streamTracker := s.counted.streamTracker
      unfold streamsInProgress at streamTracker ⊢
      dsimp only
      rw [List.countP_append, List.countP_singleton]
      exact streamTracker
  · exact s

theorem arriveStream (s : a.Slotted) (body : GenerateRequest) (sampling : SamplingParameters) (tenantId : String) :
    (a.arriveStream body sampling tenantId).Slotted := by
  have limiter := s.counted.limiter
  have streamTracker := s.counted.streamTracker
  unfold AppState.arriveStream StreamTracker.start
  split
  · exact s
  rename_i tracker starts
  split at starts <;> cases starts
  split
  · rename_i limiter' acquires
    unfold ConcurrencyLimiter.acquire at acquires
    split at acquires <;> cases acquires
    refine ⟨⟨?_, ?_, s.counted.misuses⟩, s.sheltered⟩
    · unfold inProgress at limiter ⊢
      dsimp only
      rw [List.length_append, List.length_singleton]
      omega
    · unfold streamsInProgress at streamTracker ⊢
      dsimp only
      rw [List.countP_append, List.countP_singleton]
      change _ = ((_ + 1 + _ : Nat) : Int)
      omega
  · have b : Balanced { a with streamTracker := { a.streamTracker with active := a.streamTracker.active + 1, idle := false } }
        a.inProgress (a.streamsInProgress + 1) := by
      refine ⟨limiter, ?_, s.counted.misuses⟩
      dsimp only
      omega
    obtain ⟨a', finishes, after, keeps⟩ := finish_balanced b
    rw [finishes]
    exact .of_keeps after s.sheltered ⟨keeps.gateway, keeps.calls, keeps.givenUp⟩

theorem act (s : a.Slotted) {action : AppAction} (serves : Serves settings a action) (acts : a.act settings action = some a') :
    a'.Slotted := by
  have apart : ∀ {action : GatewayAction}, action = .close ∨ (∃ resumption, action = .schedule resumption) ∨
      action = .interruptScheduler ∨ (∃ requestId tenantId, action = .cancelRequest requestId tenantId) →
        a.onGateway settings action = some a' → a'.Slotted := by
    intro action apart run
    obtain ⟨g, does, rfl⟩ := Option.map_eq_some_iff.mp run
    exact s.drained (Gateway.act_drains apart does)
  cases action with
  | close => exact apart (Or.inl rfl) acts
  | schedule resumption => exact apart (Or.inr (Or.inl ⟨resumption, rfl⟩)) acts
  | interruptScheduler => exact apart (Or.inr (Or.inr (Or.inl rfl))) acts
  | cancelRequest requestId tenantId => exact apart (Or.inr (Or.inr (Or.inr ⟨requestId, tenantId, rfl⟩))) acts
  | closeTracker =>
    cases acts
    exact ⟨⟨s.counted.limiter, s.counted.streamTracker, s.counted.misuses⟩, s.sheltered⟩
  | arrive body tenantId =>
    cases acts
    exact s.arrive body tenantId
  | arriveStream body sampling tenantId =>
    cases acts
    exact s.arriveStream body sampling tenantId
  | validated call result requestId =>
    simp only [AppState.act] at acts
    split at acts
    · obtain ⟨c, found, run⟩ := Option.bind_eq_some_iff.mp acts
      exact s.validated found serves run
    · cases acts
  | checked call result requestId =>
    simp only [AppState.act] at acts
    split at acts
    · obtain ⟨c, found, run⟩ := Option.bind_eq_some_iff.mp acts
      exact s.checked found serves run
    · cases acts
  | resume handler resumption =>
    simp only [AppState.act] at acts
    split at acts
    · refine s.handled (fun h h' g found run => ?_) acts
      have member := List.mem_of_getElem? found
      exact Gateway.resume_shifts s.sheltered.reserves (s.sheltered.stored h member) (s.sheltered.keeps h member) run
    · cases acts
  | interrupt handler =>
    simp only [AppState.act] at acts
    split at acts
    · obtain ⟨noted, same, given⟩ := s.noting (i := handler) HandlerPlace.isDraining
      refine noted.handled (fun h h' g found run => ?_) acts
      have member := List.mem_of_getElem? found
      rw [same] at found
      rw [← same] at run
      refine Gateway.interrupt_shifts noted.sheltered.reserves (noted.sheltered.keeps h member) (fun sequence here => ?_) run
      exact given h found (by rw [here]; rfl)
    · cases acts
  | abandon handler raised =>
    simp only [AppState.act] at acts
    split at acts
    · rename_i may
      obtain ⟨noted, same, given⟩ := s.noting (i := handler) HandlerPlace.isYielding
      refine noted.handled (fun h h' g found run => ?_) acts
      have member := List.mem_of_getElem? found
      rw [same] at found
      rw [← same] at run
      refine Gateway.abandon_shifts may.2 noted.sheltered.reserves (noted.sheltered.keeps h member) (serves h found)
        (fun sequence complete here => ?_) run
      exact given h found (by rw [here]; rfl)
    · cases acts

theorem step (s : a.Slotted) {action : Option AppAction} (serves : ∀ b, action = some b → Serves settings a b)
    (step : Step settings a action a') : a'.Slotted := by
  cases step with
  | act acts => exact s.act (serves _ rfl) acts
  | engine runs works =>
    rename_i c c'
    refine s.drained ⟨rfl, fun _ known => known, fun last same => ?_⟩
    cases same
    obtain ⟨drains, draining⟩ := works.drains (s.sheltered.draining c runs)
    exact ⟨c, runs, drains, fun _ => draining⟩

end Slotted

/-- The state after an action, the same one if the action cannot happen. -/
def after (settings : GatewaySettings) (a : AppState backend) (action : AppAction) : AppState backend :=
  (a.act settings action).getD a

/-- All actions of a list can happen, and are allowed. -/
def Permits (settings : GatewaySettings) (Allowed : AppState backend → AppAction → Prop) :
    AppState backend → List AppAction → Prop
  | _, [] => True
  | a, action :: rest => Allowed a action ∧ (a.act settings action).isSome = true ∧
      Permits settings Allowed (a.after settings action) rest

theorem Reach.run {Start : AppState backend → Prop} {Allowed : AppState backend → AppAction → Prop} {actions : List AppAction}
    (reached : Reach settings Start Allowed a) (permits : a.Permits settings Allowed actions) :
    Reach settings Start Allowed (actions.foldl (after settings) a) := by
  induction actions generalizing a with
  | nil => exact reached
  | cons action rest ih =>
    obtain ⟨allowed, possible, permits⟩ := permits
    obtain ⟨a', acts⟩ := Option.isSome_iff_exists.mp possible
    have same : a.after settings action = a' := by rw [after, acts, Option.getD_some]
    rw [same] at permits
    rw [List.foldl_cons, same]
    refine ih (reached.next (fun b here => ?_) (.act acts)) permits
    cases here
    exact allowed

namespace Sample

open Gateway.Sample

/-- An application without a token engine. -/
def new : AppState silent := ⟨Gateway.Sample.new, ⟨4, 0⟩, ⟨true, 0, true⟩, [], [], []⟩

theorem new_fresh : new.Fresh := ⟨Gateway.Sample.new_fresh, fun _ impossible => (by cases impossible), rfl, rfl, rfl, rfl, rfl⟩

/-- A stream is admitted. -/
def begun : List AppAction := [.arriveStream body sampling "tenant", .validated 0 (.ok 1) "request"]

/-- It gives a chunk, and its client goes away. -/
def clientGone : List AppAction :=
  [.resume 0 .proceed, .resume 0 (.chunk 1), .abandon 0 ⟨.generatorExit, ""⟩, .resume 0 .proceed]

end Sample

end AppState

end ServingPlatform
