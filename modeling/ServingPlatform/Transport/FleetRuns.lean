import ServingPlatform.Transport.FleetMerges

namespace ServingPlatform

namespace RequestRecord

variable {r : RequestRecord} {at_ : Seconds} {target : RequestState}

@[simp] theorem follow_requestId (targets : List RequestState) : (r.follow at_ targets).requestId = r.requestId := by
  induction targets generalizing r with
  | nil => rfl
  | cons target rest ih =>
    unfold follow
    rcases r.transition_cases target at_ with ⟨-, run⟩ | ⟨-, raised, run, -⟩
    · rw [run]
      exact ih
    · rw [run]

theorem follow_single (allowed : target ∈ r.status.allowed) : r.follow at_ [target] = r.enter target at_ := by
  unfold follow
  rw [transition_ok allowed]
  rfl

@[simp] theorem handBack_requestId : (r.handBack at_).requestId = r.requestId := by
  unfold handBack
  split
  · rfl
  · exact follow_requestId _

@[simp] theorem giveUp_requestId : (r.giveUp at_).requestId = r.requestId := by
  unfold giveUp
  split
  · rfl
  · exact follow_requestId _

/-- A request that may fail is over once it is given up. -/
theorem giveUp_over (ends : r.terminal = true ∨ .failed ∈ r.status.allowed) : (r.giveUp at_).terminal = true := by
  unfold giveUp
  split
  · assumption
  · rename_i alive
    rw [follow_single (ends.resolve_left alive)]
    rfl

/-- An assigned request is queued again, and a queued one stays so. -/
theorem handBack_queued (waits : r.status = .assigned ∨ r.status = .queued) : (r.handBack at_).status = .queued := by
  have alive : r.terminal = false := by
    unfold terminal
    rcases waits with status | status <;> rw [status] <;> rfl
  unfold handBack
  rw [if_neg (by simp [alive])]
  unfold follow
  rcases (r.assign none).transition_cases .queued at_ with ⟨-, run⟩ | ⟨refused, raised, run, -⟩
  · rw [run]
    rfl
  · rw [run]
    rcases waits with status | status
    · have same : (r.assign none).status = .assigned := status
      rw [same] at refused
      exact absurd (by decide) refused
    · exact status

theorem abandoned_over (waits : r.status = .assigned ∨ r.status = .queued) : ((r.handBack at_).giveUp at_).terminal = true :=
  giveUp_over (Or.inr (by rw [handBack_queued waits]; decide))

end RequestRecord

/-- What is read is named as the payload. -/
theorem requestFromDict_requestId {payload : RequestPayload} {r : RequestRecord} (run : requestFromDict payload = .ok r) :
    r.requestId = payload.requestId := by
  unfold requestFromDict at run
  split at run
  · cases run
  · cases run
  · split at run
    · split at run <;> cases run
      rfl
    · cases run

namespace WorkerApp

/-- The app with a new record of a request. -/
def keep (app : WorkerApp) (r : RequestRecord) (now : Seconds) : WorkerApp :=
  { app with
    worker := { app.worker with queue := app.worker.queue ++ [app.created] }
    objects := app.objects.put app.created (r.enter .queued now)
    created := app.created + 1
    requests := app.requests.insert r.requestId app.created }

end WorkerApp

namespace Link

/-- A hand-over is lost or refused, or the app keeps the request, and then the
client knows it, unless the reply is lost. -/
theorem enqueueRequest_cases (delivery : Delivery) (i : ObjectId) (now : Seconds) (l : Link) :
    (∃ raised, enqueueRequest delivery i now l = (.error raised, l)) ∨
    (∃ raised, delivery ≠ .requestLost ∧
      enqueueRequest delivery i now l = (.error raised, { l with app := l.app.keep (l.objects i) now })) ∨
    delivery = .answered ∧ enqueueRequest delivery i now l = (.ok (), {
      client := { l.client with requests := l.client.requests.insert (l.objects i).requestId i }
      objects := l.objects.put i ((l.objects i).merge ((l.objects i).enter .queued now))
      app := l.app.keep (l.objects i) now }) := by
  have reads : (Attempt.read fun l => l.objects i : Attempt Raised Link RequestRecord) l = (.ok (l.objects i), l) := rfl
  unfold enqueueRequest
  rw [Attempt.bind_ok reads]
  have effect := WorkerApp.enqueueRequest_cases (requestToDict (l.objects i)) now l.app
  rw [requestFromDict_requestToDict] at effect
  rcases request_cases delivery "POST" "/internal/requests" (WorkerApp.enqueueRequest (requestToDict (l.objects i)) now) l with
    ⟨raised, -, run⟩ | ⟨raised, sent, run⟩ | ⟨payload, whole, answered, run⟩
  · rw [Attempt.bind_error run]
    exact Or.inl ⟨raised, rfl⟩
  · rw [Attempt.bind_error run]
    rcases effect with ⟨refused, effect⟩ | ⟨r, ⟨⟩, effect⟩
    · rw [effect]
      exact Or.inl ⟨raised, rfl⟩
    · rw [effect]
      exact Or.inr (Or.inl ⟨raised, sent, rfl⟩)
  · rw [Attempt.bind_ok run]
    rcases effect with ⟨refused, effect⟩ | ⟨r, ⟨⟩, effect⟩
    · rw [effect] at answered
      cases answered
    · rw [effect] at answered ⊢
      cases answered
      rw [Attempt.bind_ok (applyTo_requestToDict _)]
      exact Or.inr (Or.inr ⟨whole, rfl⟩)

end Link

namespace Fleet

variable {f f' : Fleet} {i : ObjectId} {workerId requestId : String}

/-- The hand-overs that may still arrive. -/
def lateEnqueues (f : Fleet) : List (String × RequestPayload) :=
  f.late.filterMap fun (workerId, call) =>
    match call with
    | .enqueue payload => some (workerId, payload)
    | _ => none

/-- A request of that id was handed over, or will not be. -/
def Sent (f : Fleet) (requestId : String) : Prop :=
  ∃ k < f.created, (f.objects k).requestId = requestId ∧ ∀ workerId, f.phase ≠ .assigned k workerId

/-- What holds in every run. Request ids are used once; a client knows the
request that is handed over and ones that are over. -/
structure Tracked (f : Fleet) : Prop where
  apps : ∀ workerId, (f.apps workerId).Served
  assigned : ∀ i workerId, f.phase = .assigned i workerId → i < f.created ∧ (f.objects i).status = .assigned
  handedOver : ∀ i workerId, f.phase = .handedOver i workerId →
    i < f.created ∧ (f.objects i).status = .queued
  known : ∀ workerId requestId k, (f.clients workerId).requests.get? requestId = some k → k < f.created ∧
    (f.objects k).requestId = requestId ∧ ((f.objects k).terminal = true ∨ ∃ other, f.phase = .handedOver k other)
  unique : ∀ k < f.created, ∀ k' < f.created, (f.objects k).requestId = (f.objects k').requestId → k = k'
  named : ∀ workerId requestId j, (f.apps workerId).requests.get? requestId = some j → f.Sent requestId
  late : ∀ workerId payload, (workerId, payload) ∈ f.lateEnqueues →
    f.Sent payload.requestId ∧ (f.apps workerId).requests.get? payload.requestId = none
  once : (f.lateEnqueues.map (·.2.requestId)).Nodup

/-- The request is that of the submission that is under way. -/
def Current (f : Fleet) (i : ObjectId) : Prop :=
  (∃ workerId, f.phase = .assigned i workerId) ∨ ∃ workerId, f.phase = .handedOver i workerId

/-- The submission is over, whatever else has changed. -/
structure Ends (f : Fleet) (i : ObjectId) (f' : Fleet) : Prop where
  created : f'.created = f.created
  clients : f'.clients = f.clients
  phase : f'.phase = .idle
  ids : ∀ k, (f'.objects k).requestId = (f.objects k).requestId
  isOver : (f'.objects i).terminal = true
  others : ∀ k, k ≠ i → (f.objects k).terminal = true → (f'.objects k).terminal = true
  apps : ∀ workerId, (f'.apps workerId).Served
  named : ∀ workerId requestId j, (f'.apps workerId).requests.get? requestId = some j →
    (∃ j', (f.apps workerId).requests.get? requestId = some j') ∨
      requestId = (f.objects i).requestId ∧ ∃ other, f.phase = .assigned i other
  late : f'.lateEnqueues = f.lateEnqueues ∨
    ∃ workerId payload, f'.lateEnqueues = f.lateEnqueues ++ [(workerId, payload)] ∧
      payload.requestId = (f.objects i).requestId ∧ (∃ other, f.phase = .assigned i other) ∧
      (f'.apps workerId).requests.get? payload.requestId = none

theorem Tracked.current_created (tracked : f.Tracked) (current : f.Current i) : i < f.created := by
  rcases current with ⟨workerId, here⟩ | ⟨workerId, here⟩
  · exact (tracked.assigned i workerId here).1
  · exact (tracked.handedOver i workerId here).1

/-- Before the hand-over, nobody has heard of the request. -/
theorem Tracked.unsent (tracked : f.Tracked) (here : f.phase = .assigned i workerId) : ¬f.Sent (f.objects i).requestId := by
  rintro ⟨k, inside, same, elsewhere⟩
  cases tracked.unique k inside i (tracked.assigned i workerId here).1 same
  exact elsewhere workerId here

theorem Tracked.sent_of_ends (tracked : f.Tracked) (current : f.Current i) (ends : Ends f i f')
    (named : f.Sent requestId ∨ requestId = (f.objects i).requestId) : f'.Sent requestId := by
  have idle : ∀ {k : ObjectId} workerId, f'.phase ≠ .assigned k workerId := by
    intro k workerId here
    rw [ends.phase] at here
    cases here
  rcases named with ⟨k, inside, same, -⟩ | rfl
  · exact ⟨k, by rw [ends.created]; exact inside, (ends.ids k).trans same, idle⟩
  · exact ⟨i, by rw [ends.created]; exact tracked.current_created current, ends.ids i, idle⟩

theorem Tracked.ends (tracked : f.Tracked) (current : f.Current i) (ends : Ends f i f') : f'.Tracked where
  apps := ends.apps
  assigned k workerId here := by
    rw [ends.phase] at here
    cases here
  handedOver k workerId here := by
    rw [ends.phase] at here
    cases here
  known workerId requestId k found := by
    rw [ends.clients] at found
    obtain ⟨inside, same, stands⟩ := tracked.known workerId requestId k found
    rw [ends.created]
    refine ⟨inside, (ends.ids k).trans same, Or.inl ?_⟩
    rcases eq_or_ne k i with rfl | differ
    · exact ends.isOver
    · refine ends.others k differ (stands.resolve_right ?_)
      rintro ⟨other, here⟩
      rcases current with ⟨there, assigned⟩ | ⟨there, handed⟩
      · cases here.symm.trans assigned
      · cases here.symm.trans handed
        exact differ rfl
  unique k inside k' inside' same := by
    rw [ends.created] at inside inside'
    rw [ends.ids, ends.ids] at same
    exact tracked.unique k inside k' inside' same
  named workerId requestId j found := by
    refine tracked.sent_of_ends current ends ?_
    rcases ends.named workerId requestId j found with ⟨j', before⟩ | here
    · exact Or.inl (tracked.named workerId requestId j' before)
    · exact Or.inr here.1
  late workerId payload member := by
    have missing : (workerId, payload) ∈ f.lateEnqueues → (f'.apps workerId).requests.get? payload.requestId = none := by
      intro before
      obtain ⟨sent, absent⟩ := tracked.late workerId payload before
      cases found : (f'.apps workerId).requests.get? payload.requestId with
      | none => rfl
      | some j =>
        exfalso
        rcases ends.named workerId _ j found with ⟨j', known⟩ | ⟨same, other, assigned⟩
        · rw [absent] at known
          cases known
        · rw [same] at sent
          exact tracked.unsent assigned sent
    rcases ends.late with same | ⟨there, last, more, own, -, absent⟩
    · rw [same] at member
      exact ⟨tracked.sent_of_ends current ends (Or.inl (tracked.late workerId payload member).1), missing member⟩
    · rw [more] at member
      rcases List.mem_append.mp member with before | here
      · exact ⟨tracked.sent_of_ends current ends (Or.inl (tracked.late workerId payload before).1), missing before⟩
      · cases List.mem_singleton.mp here
        exact ⟨tracked.sent_of_ends current ends (Or.inr own), absent⟩
  once := by
    rcases ends.late with same | ⟨there, last, more, own, ⟨other, assigned⟩, -⟩
    · rw [same]
      exact tracked.once
    · rw [more, List.map_append]
      refine List.Nodup.append tracked.once (List.nodup_singleton _) ?_
      intro requestId member here
      cases List.mem_singleton.mp here
      obtain ⟨⟨there', payload⟩, before, same⟩ := List.mem_map.mp member
      have sent := (tracked.late there' payload before).1
      dsimp only at same
      rw [same, own] at sent
      exact tracked.unsent assigned sent

section Steps

/-- The submission ends without another call. -/
theorem Tracked.leave (tracked : f.Tracked) (current : f.Current i) {change : RequestRecord → RequestRecord}
    (same : (change (f.objects i)).requestId = (f.objects i).requestId) (isOver : (change (f.objects i)).terminal = true) :
    (f.leave i change).Tracked := by
  refine tracked.ends current ⟨rfl, rfl, rfl, fun k => ?_, ?_, fun k differ before => ?_, tracked.apps,
    fun workerId requestId j found => Or.inl ⟨j, found⟩, Or.inl rfl⟩
  · dsimp only [Fleet.leave]
    rcases eq_or_ne k i with rfl | differ
    · rw [Objects.put_self, same]
    · rw [Objects.put_of_ne differ]
  · dsimp only [Fleet.leave]
    rw [Objects.put_self]
    exact isOver
  · dsimp only [Fleet.leave]
    rw [Objects.put_of_ne differ]
    exact before

theorem Tracked.waits (tracked : f.Tracked) (current : f.Current i) :
    (f.objects i).status = .assigned ∨ (f.objects i).status = .queued := by
  rcases current with ⟨workerId, here⟩ | ⟨workerId, here⟩
  · exact Or.inl (tracked.assigned i workerId here).2
  · exact Or.inr (tracked.handedOver i workerId here).2

theorem Tracked.abandon (tracked : f.Tracked) (current : f.Current i) (at_ : Seconds) : (f.abandon i at_).Tracked :=
  tracked.leave current (by simp) (RequestRecord.abandoned_over (tracked.waits current))

theorem Tracked.giveUp (tracked : f.Tracked) (here : f.phase = .handedOver i workerId) (at_ : Seconds) :
    (f.leave i (·.giveUp at_)).Tracked := by
  refine tracked.leave (Or.inr ⟨workerId, here⟩) (by simp) (RequestRecord.giveUp_over (Or.inr ?_))
  rw [(tracked.handedOver i workerId here).2]
  decide

/-- Apps change but for their records, and what is late stays late. -/
theorem Tracked.recast (tracked : f.Tracked) {apps : String → WorkerApp} {late : List (String × LateCall)}
    (served : ∀ workerId, (apps workerId).Served) (requests : ∀ workerId, (apps workerId).requests = (f.apps workerId).requests)
    (same : lateEnqueues { f with apps, late } = f.lateEnqueues) : Tracked { f with apps, late } where
  apps := served
  assigned := tracked.assigned
  handedOver := tracked.handedOver
  known := tracked.known
  unique := tracked.unique
  named workerId requestId j found := by
    dsimp only at found
    rw [requests] at found
    exact tracked.named workerId requestId j found
  late workerId payload member := by
    rw [same] at member
    dsimp only
    rw [requests]
    exact tracked.late workerId payload member
  once := by
    rw [same]
    exact tracked.once

theorem lateEnqueues_lose (f : Fleet) (delivery : Delivery) (workerId : String) {call : LateCall}
    (other : ∀ payload, call ≠ .enqueue payload) : (f.lose delivery workerId call).lateEnqueues = f.lateEnqueues := by
  unfold lose
  split
  · unfold lateEnqueues
    dsimp only
    rw [List.filterMap_append]
    cases call with
    | enqueue payload => exact absurd rfl (other payload)
    | load model => simp
    | execute => simp
  · rfl

/-- An app after a call, the others as they were. -/
theorem served_update (served : ∀ workerId, (f.apps workerId).Served) {app : WorkerApp} (after : app.Served) (other : String) :
    (Function.update f.apps workerId app other).Served := by
  rcases eq_or_ne other workerId with rfl | differ
  · rw [Function.update_self]
    exact after
  · rw [Function.update_of_ne differ]
    exact served other

theorem requests_update {app : WorkerApp} (same : app.requests = (f.apps workerId).requests) (other : String) :
    (Function.update f.apps workerId app other).requests = (f.apps other).requests := by
  rcases eq_or_ne other workerId with rfl | differ
  · rw [Function.update_self]
    exact same
  · rw [Function.update_of_ne differ]

theorem loadModel_requests (model : ModelDefinition) (answers : LoadAnswers) (app : WorkerApp) :
    (WorkerApp.loadModel model answers app).2.requests = app.requests := by
  unfold WorkerApp.loadModel
  split
  · rfl
  split <;> rfl

theorem executeBatch_requests (inputs : ManagedWorker.BatchInputs) (app : WorkerApp) :
    (WorkerApp.executeBatch inputs app).2.requests = app.requests := by
  rcases run : ManagedWorker.executeBatch inputs app.process with ⟨result, process⟩
  rw [WorkerApp.executeBatch_run run]
  rfl

theorem Tracked.load (tracked : f.Tracked) (delivery : Delivery) (model : ModelDefinition) (answers : LoadAnswers) :
    Tracked ((f.setLink workerId (Link.loadModel delivery model answers (f.link workerId)).2).lose delivery workerId (.load model)) ∧
      (f.setLink workerId (Link.loadModel delivery model answers (f.link workerId)).2).phase = f.phase := by
  have app : ∃ app : WorkerApp, app.Served ∧ app.requests = (f.apps workerId).requests ∧
      (Link.loadModel delivery model answers (f.link workerId)).2 = ⟨f.clients workerId, f.objects, app⟩ := by
    unfold Link.loadModel
    rcases Link.request_cases delivery "POST" "/internal/models/load" (WorkerApp.loadModel model answers) (f.link workerId) with
      ⟨raised, -, run⟩ | ⟨raised, -, run⟩ | ⟨answer, -, -, run⟩
    · rw [run]
      exact ⟨_, tracked.apps workerId, rfl, rfl⟩
    · rw [run]
      exact ⟨_, (tracked.apps workerId).load model answers, loadModel_requests model answers _, rfl⟩
    · rw [run]
      exact ⟨_, (tracked.apps workerId).load model answers, loadModel_requests model answers _, rfl⟩
  obtain ⟨app, served, requests, run⟩ := app
  rw [run]
  refine ⟨?_, rfl⟩
  have set : f.setLink workerId ⟨f.clients workerId, f.objects, app⟩ =
      { f with apps := Function.update f.apps workerId app, late := f.late } := by
    unfold setLink
    rw [Function.update_eq_self]
  have other : ∀ payload, LateCall.load model ≠ .enqueue payload := fun payload impossible => by cases impossible
  have enqueues := lateEnqueues_lose (f.setLink workerId ⟨f.clients workerId, f.objects, app⟩) delivery workerId other
  rw [set] at enqueues ⊢
  unfold lose at enqueues ⊢
  split at enqueues
  · rename_i lost
    rw [if_pos lost]
    exact tracked.recast (served_update tracked.apps served) (requests_update requests) enqueues
  · rename_i kept
    rw [if_neg kept]
    exact tracked.recast (served_update tracked.apps served) (requests_update requests) enqueues

theorem lateEnqueues_lose_enqueue (f : Fleet) (delivery : Delivery) (workerId : String) (payload : RequestPayload) :
    (f.lose delivery workerId (.enqueue payload)).lateEnqueues = f.lateEnqueues ∨
      (f.lose delivery workerId (.enqueue payload)).lateEnqueues = f.lateEnqueues ++ [(workerId, payload)] := by
  unfold lose
  split
  · refine Or.inr ?_
    unfold lateEnqueues
    dsimp only
    rw [List.filterMap_append]
    rfl
  · exact Or.inl rfl

/-- Nobody else has the request that is to be handed over. -/
theorem Tracked.absent (tracked : f.Tracked) (here : f.phase = .assigned i workerId) (other : String) :
    (f.apps other).requests.get? (f.objects i).requestId = none := by
  cases found : (f.apps other).requests.get? (f.objects i).requestId with
  | none => rfl
  | some j => exact absurd (tracked.named other _ j found) (tracked.unsent here)

/-- A hand-over fails, whether or not the worker has the request. -/
theorem Tracked.unanswered (tracked : f.Tracked) (here : f.phase = .assigned i workerId) (delivery : Delivery) (at_ : Seconds)
    {app : WorkerApp} (served : app.Served) (requests : ∀ requestId j, app.requests.get? requestId = some j →
      (∃ j', (f.apps workerId).requests.get? requestId = some j') ∨ requestId = (f.objects i).requestId)
    (lost : delivery = .requestLost → app = f.apps workerId) :
    Tracked (((f.setLink workerId ⟨f.clients workerId, f.objects, app⟩).lose delivery workerId
      (.enqueue (requestToDict (f.objects i)))).abandon i at_) := by
  have current : f.Current i := Or.inl ⟨workerId, here⟩
  have objects : (((f.setLink workerId ⟨f.clients workerId, f.objects, app⟩).lose delivery workerId
      (.enqueue (requestToDict (f.objects i)))).abandon i at_).objects =
      f.objects.put i (((f.objects i).handBack at_).giveUp at_) := by
    unfold lose
    split <;> rfl
  have apps : (((f.setLink workerId ⟨f.clients workerId, f.objects, app⟩).lose delivery workerId
      (.enqueue (requestToDict (f.objects i)))).abandon i at_).apps = Function.update f.apps workerId app := by
    unfold lose
    split <;> rfl
  have clients : (((f.setLink workerId ⟨f.clients workerId, f.objects, app⟩).lose delivery workerId
      (.enqueue (requestToDict (f.objects i)))).abandon i at_).clients = f.clients := by
    unfold lose
    split <;> exact Function.update_eq_self _ _
  have created : (((f.setLink workerId ⟨f.clients workerId, f.objects, app⟩).lose delivery workerId
      (.enqueue (requestToDict (f.objects i)))).abandon i at_).created = f.created := by
    unfold lose
    split <;> rfl
  refine tracked.ends current ⟨created, clients, rfl, fun k => ?_, ?_, fun k differ before => ?_, fun other => ?_,
    fun other requestId j found => ?_, ?_⟩
  · rw [objects]
    rcases eq_or_ne k i with rfl | differ
    · rw [Objects.put_self]
      simp
    · rw [Objects.put_of_ne differ]
  · rw [objects, Objects.put_self]
    exact RequestRecord.abandoned_over (tracked.waits current)
  · rw [objects, Objects.put_of_ne differ]
    exact before
  · rw [apps]
    exact served_update tracked.apps served other
  · rw [apps] at found
    rcases eq_or_ne other workerId with rfl | differ
    · rw [Function.update_self] at found
      exact (requests requestId j found).imp id fun same => ⟨same, other, here⟩
    · rw [Function.update_of_ne differ] at found
      exact Or.inl ⟨j, found⟩
  · rw [apps]
    by_cases gone : delivery = .requestLost
    · rcases lateEnqueues_lose_enqueue (f.setLink workerId ⟨f.clients workerId, f.objects, app⟩) delivery workerId
        (requestToDict (f.objects i)) with same | more
      · exact Or.inl same
      · refine Or.inr ⟨workerId, requestToDict (f.objects i), more, rfl, ⟨workerId, here⟩, ?_⟩
        rw [Function.update_self, lost gone]
        exact tracked.absent here workerId
    · refine Or.inl ?_
      unfold lose
      rw [if_neg gone]
      rfl

/-- The worker and the client have the request. -/
theorem Tracked.handOver (tracked : f.Tracked) (here : f.phase = .assigned i workerId) (now : Seconds) :
    Tracked { f.setLink workerId {
        client := { f.clients workerId with requests := (f.clients workerId).requests.insert (f.objects i).requestId i }
        objects := f.objects.put i ((f.objects i).merge ((f.objects i).enter .queued now))
        app := (f.apps workerId).keep (f.objects i) now } with phase := .handedOver i workerId } := by
  obtain ⟨inside, status⟩ := tracked.assigned i workerId here
  have ids : ∀ k, ((f.objects.put i ((f.objects i).merge ((f.objects i).enter .queued now))) k).requestId = (f.objects k).requestId := by
    intro k
    rcases eq_or_ne k i with rfl | differ
    · rw [Objects.put_self]
      rfl
    · rw [Objects.put_of_ne differ]
  have sent : ∀ {requestId : String} {g : Fleet}, g.created = f.created → (∀ k, (g.objects k).requestId = (f.objects k).requestId) →
      g.phase = .handedOver i workerId → f.Sent requestId ∨ requestId = (f.objects i).requestId → g.Sent requestId := by
    intro requestId g created same phase named
    have handed : ∀ {k : ObjectId} other, g.phase ≠ .assigned k other := by
      intro k other impossible
      rw [phase] at impossible
      cases impossible
    rcases named with ⟨k, known, own, -⟩ | rfl
    · exact ⟨k, by rw [created]; exact known, (same k).trans own, handed⟩
    · exact ⟨i, by rw [created]; exact inside, same i, handed⟩
  have others : ∀ {other requestId k}, (f.clients other).requests.get? requestId = some k →
      k ≠ i ∧ (f.objects k).terminal = true := by
    intro other requestId k found
    obtain ⟨-, -, stands⟩ := tracked.known other requestId k found
    have isOver : (f.objects k).terminal = true := by
      refine stands.resolve_right ?_
      rintro ⟨there, handed⟩
      cases here.symm.trans handed
    refine ⟨?_, isOver⟩
    rintro rfl
    unfold RequestRecord.terminal at isOver
    rw [status] at isOver
    cases isOver
  refine ⟨served_update tracked.apps ?_, fun k other impossible => (by cases impossible), fun k other handed => ?_,
    fun other requestId k found => ?_, fun k known k' known' same => ?_, fun other requestId j found => ?_,
    fun other payload member => ?_, tracked.once⟩
  · exact (tracked.apps workerId).enqueue (tracked.absent here workerId)
  · cases handed
    refine ⟨inside, ?_⟩
    dsimp only [setLink]
    rw [Objects.put_self]
    rfl
  · have old : (f.clients other).requests.get? requestId = some k → k < f.created ∧
        ((f.objects.put i ((f.objects i).merge ((f.objects i).enter .queued now))) k).requestId = requestId ∧
        ((f.objects.put i ((f.objects i).merge ((f.objects i).enter .queued now))) k).terminal = true := by
      intro before
      obtain ⟨known, own, -⟩ := tracked.known other requestId k before
      obtain ⟨differ, isOver⟩ := others before
      refine ⟨known, (ids k).trans own, ?_⟩
      rw [Objects.put_of_ne differ]
      exact isOver
    dsimp only [setLink] at found ⊢
    rcases eq_or_ne other workerId with rfl | differ
    · rw [Function.update_self] at found
      dsimp only at found
      rw [Dict.get?_insert] at found
      split at found
      · rename_i same
        cases found
        exact ⟨inside, (ids i).trans same.symm, Or.inr ⟨other, rfl⟩⟩
      · obtain ⟨known, own, isOver⟩ := old found
        exact ⟨known, own, Or.inl isOver⟩
    · rw [Function.update_of_ne differ] at found
      obtain ⟨known, own, isOver⟩ := old found
      exact ⟨known, own, Or.inl isOver⟩
  · exact tracked.unique k known k' known' ((ids k).symm.trans (same.trans (ids k')))
  · refine sent rfl ids rfl ?_
    dsimp only [setLink] at found
    rcases eq_or_ne other workerId with rfl | differ
    · rw [Function.update_self] at found
      dsimp only [WorkerApp.keep] at found
      rw [Dict.get?_insert] at found
      split at found
      · rename_i same
        exact Or.inr same
      · exact Or.inl (tracked.named other requestId j found)
    · rw [Function.update_of_ne differ] at found
      exact Or.inl (tracked.named other requestId j found)
  · obtain ⟨before, absent⟩ := tracked.late other payload member
    refine ⟨sent rfl ids rfl (Or.inl before), ?_⟩
    dsimp only [setLink]
    rcases eq_or_ne other workerId with rfl | differ
    · rw [Function.update_self]
      dsimp only [WorkerApp.keep]
      rw [Dict.get?_insert, if_neg]
      · exact absent
      · intro same
        rw [same] at before
        exact tracked.unsent here before
    · rw [Function.update_of_ne differ]
      exact absent

theorem Tracked.enqueue (tracked : f.Tracked) {delivery : Delivery} {now at_ : Seconds}
    (acts : f.act (.enqueue delivery now at_) = some f') : f'.Tracked := by
  simp only [act] at acts
  split at acts
  · rename_i i workerId here
    have served := tracked.apps workerId
    have kept : ∀ requestId j, ((f.apps workerId).keep (f.objects i) now).requests.get? requestId = some j →
        (∃ j', (f.apps workerId).requests.get? requestId = some j') ∨ requestId = (f.objects i).requestId := by
      intro requestId j found
      unfold WorkerApp.keep at found
      dsimp only at found
      rw [Dict.get?_insert] at found
      split at found
      · rename_i same
        exact Or.inr same
      · exact Or.inl ⟨j, found⟩
    rcases Link.enqueueRequest_cases delivery i now (f.link workerId) with ⟨raised, run⟩ | ⟨raised, sent, run⟩ | ⟨rfl, run⟩
    · rw [run] at acts
      cases acts
      exact tracked.unanswered here delivery at_ served (fun requestId j found => Or.inl ⟨j, found⟩) fun _ => rfl
    · rw [run] at acts
      cases acts
      exact tracked.unanswered here delivery at_ (served.enqueue (tracked.absent here workerId)) kept fun lost => absurd lost sent
    · rw [run] at acts
      cases acts
      exact tracked.handOver here now
  · cases acts

/-- A batch is asked for: the submission is over, whatever the answer is. -/
theorem Tracked.execute (tracked : f.Tracked) {delivery : Delivery} {inputs : ManagedWorker.BatchInputs} {at_ : Seconds}
    (acts : f.act (.execute delivery inputs at_) = some f') : f'.Tracked := by
  simp only [act] at acts
  split at acts
  · rename_i i workerId here
    obtain ⟨inside, status⟩ := tracked.handedOver i workerId here
    have served := tracked.apps workerId
    have other : ∀ payload, LateCall.execute ≠ .enqueue payload := fun payload impossible => by cases impossible
    -- all that the exchange may have changed
    have exchange : ∃ result l, Link.executeBatch delivery inputs (f.link workerId) = (result, l) ∧ l.client = f.clients workerId ∧
        l.app.Served ∧ l.app.requests = (f.apps workerId).requests ∧
        (∀ k, l.objects k = f.objects k ∨ (l.objects k).status = .completed ∧ (l.objects k).requestId = (f.objects k).requestId) ∧
        ∀ executions, result = .ok executions → (executions.any fun e => e.requestId = (f.objects i).requestId) = true →
          (l.objects i).status = .completed := by
      unfold Link.executeBatch
      rcases Link.request_cases delivery "POST" "/internal/batches/execute" (WorkerApp.executeBatch inputs) (f.link workerId) with
        ⟨raised, -, run⟩ | ⟨raised, -, run⟩ | ⟨items, -, answered, run⟩
      · rw [Attempt.bind_error run]
        exact ⟨_, _, rfl, rfl, served, rfl, fun k => Or.inl rfl, fun executions same => by cases same⟩
      · rw [Attempt.bind_error run]
        exact ⟨_, _, rfl, rfl, served.execute inputs, executeBatch_requests inputs _, fun k => Or.inl rfl,
          fun executions same => by cases same⟩
      · rw [Attempt.bind_ok run]
        obtain ⟨executions, -, -, completed⟩ := served.reports (Prod.ext answered rfl)
        obtain ⟨result, l, merges, merged, told⟩ := Link.mergeAll_merged completed
          { f.link workerId with app := (WorkerApp.executeBatch inputs (f.apps workerId)).2 }
        refine ⟨result, l, merges, merged.client, ?_, ?_, fun k => ?_, fun executions same reported => ?_⟩
        · rw [merged.app]
          exact served.execute inputs
        · rw [merged.app]
          exact executeBatch_requests inputs _
        · exact (merged.objects k).imp id fun after => after.2
        · obtain ⟨ids, all⟩ := told executions same
          obtain ⟨execution, member, named⟩ := List.any_eq_true.mp reported
          have listed : (f.objects i).requestId ∈ items.map (·.requestId) := by
            rw [← ids]
            exact List.mem_map.mpr ⟨execution, member, of_decide_eq_true named⟩
          obtain ⟨item, found, own⟩ := List.mem_map.mp listed
          obtain ⟨k, known, completes⟩ := all item found
          obtain ⟨within, same', -⟩ := tracked.known workerId item.requestId k known
          cases tracked.unique k within i inside (same'.trans own)
          exact completes
    obtain ⟨result, l, run, client, after, requests, merged, reported⟩ := exchange
    rw [run] at acts
    have apps : ((f.setLink workerId l).lose delivery workerId .execute).apps = Function.update f.apps workerId l.app := by
      unfold lose
      split <;> rfl
    have clients : ((f.setLink workerId l).lose delivery workerId .execute).clients = f.clients := by
      unfold lose setLink
      rw [client]
      split <;> exact Function.update_eq_self _ _
    have objects : ((f.setLink workerId l).lose delivery workerId .execute).objects = l.objects := by
      unfold lose
      split <;> rfl
    have created : ((f.setLink workerId l).lose delivery workerId .execute).created = f.created := by
      unfold lose
      split <;> rfl
    have enqueues : ((f.setLink workerId l).lose delivery workerId .execute).lateEnqueues = f.lateEnqueues :=
      (lateEnqueues_lose _ delivery workerId other).trans rfl
    have ids : ∀ k, (l.objects k).requestId = (f.objects k).requestId := by
      intro k
      rcases merged k with same | ⟨-, same⟩
      · rw [same]
      · exact same
    have isOver : ∀ k, (f.objects k).terminal = true → (l.objects k).terminal = true := by
      intro k before
      rcases merged k with same | ⟨completed, -⟩
      · rw [same]
        exact before
      · unfold RequestRecord.terminal
        rw [completed]
        rfl
    -- the end of the submission, with its request as it is then
    have ended : ∀ g : Fleet, g.created = f.created → g.clients = f.clients → g.phase = .idle →
        g.apps = Function.update f.apps workerId l.app → g.lateEnqueues = f.lateEnqueues →
        (∀ k, k ≠ i → g.objects k = l.objects k) → (g.objects i).requestId = (l.objects i).requestId →
        (g.objects i).terminal = true → g.Tracked := by
      intro g created clients phase apps enqueues others own ends
      refine tracked.ends (Or.inr ⟨workerId, here⟩) ⟨created, clients, phase, fun k => ?_, ends, fun k differ before => ?_, fun w => ?_,
        fun w requestId j found => Or.inl ?_, Or.inl enqueues⟩
      · rcases eq_or_ne k i with rfl | differ
        · exact own.trans (ids k)
        · rw [others k differ]
          exact ids k
      · rw [others k differ]
        exact isOver k before
      · rw [apps]
        exact served_update tracked.apps after w
      · rw [apps, requests_update requests] at found
        exact ⟨j, found⟩
    have gives : (((f.setLink workerId l).lose delivery workerId .execute).leave i (·.giveUp at_)).Tracked := by
      refine ended _ created clients rfl apps enqueues (fun k differ => ?_) ?_ ?_
      · unfold Fleet.leave
        dsimp only
        rw [Objects.put_of_ne differ, objects]
      · unfold Fleet.leave
        dsimp only
        rw [Objects.put_self, objects]
        exact RequestRecord.giveUp_requestId
      · unfold Fleet.leave
        dsimp only
        rw [Objects.put_self, objects]
        refine RequestRecord.giveUp_over ?_
        rcases merged i with same | ⟨completed, -⟩
        · refine Or.inr ?_
          rw [same, status]
          decide
        · refine Or.inl ?_
          unfold RequestRecord.terminal
          rw [completed]
          rfl
    dsimp only at acts
    split at acts
    · cases acts
      exact gives
    · rename_i executions
      split at acts
      · rename_i found
        cases acts
        refine ended _ created clients rfl apps enqueues (fun k _ => ?_) ?_ ?_
        · rw [objects]
        · rw [objects]
        · rw [objects]
          unfold RequestRecord.terminal
          rw [reported executions rfl found]
          rfl
      · cases acts
        exact gives
  · cases acts

theorem Submission.request_new {s : Submission} {requestId modelId : String} {now : Seconds} {r : RequestRecord}
    (run : s.request requestId modelId now = .ok r) : r.requestId = requestId ∧ r.status = .received := by
  unfold Submission.request at run
  split at run
  · split at run <;> cases run
    exact ⟨rfl, rfl⟩
  · cases run

/-- A late call is one of the list, and the others stay in order. -/
theorem late_split {late : List (String × LateCall)} {n : Nat} {call : String × LateCall} (found : late[n]? = some call) :
    ∃ before after, late = before ++ call :: after ∧ late.eraseIdx n = before ++ after := by
  obtain ⟨inside, rfl⟩ := List.getElem?_eq_some_iff.mp found
  refine ⟨late.take n, late.drop (n + 1), ?_, List.eraseIdx_eq_take_drop_succ late n⟩
  rw [List.getElem_cons_drop, List.take_append_drop]

/-- A call that the client has given up arrives. -/
theorem Tracked.arrive (tracked : f.Tracked) {n : Nat} {now : Seconds} {answers : LoadAnswers} {inputs : ManagedWorker.BatchInputs}
    (acts : f.act (.arrive n now answers inputs) = some f') : f'.Tracked := by
  simp only [act] at acts
  split at acts
  · cases acts
  rename_i workerId call found
  cases acts
  obtain ⟨before, after, late, rest⟩ := late_split found
  have served := tracked.apps workerId
  cases call with
  | load model =>
    refine tracked.recast (served_update tracked.apps (served.load model answers))
      (requests_update (loadModel_requests model answers _)) ?_
    unfold lateEnqueues
    dsimp only
    rw [rest, late]
    simp
  | execute =>
    refine tracked.recast (served_update tracked.apps (served.execute inputs)) (requests_update (executeBatch_requests inputs _)) ?_
    unfold lateEnqueues
    dsimp only
    rw [rest, late]
    simp
  | enqueue payload =>
    have enqueues : f.lateEnqueues.Perm ((workerId, payload) :: lateEnqueues { f with late := f.late.eraseIdx n }) := by
      unfold lateEnqueues
      dsimp only
      rw [rest, late, List.filterMap_append, List.filterMap_append, List.filterMap_cons]
      exact List.perm_middle
    have once := (enqueues.map (·.2.requestId)).nodup_iff.mp tracked.once
    rw [List.map_cons, List.nodup_cons] at once
    obtain ⟨sent, absent⟩ := tracked.late workerId payload (enqueues.symm.subset List.mem_cons_self)
    have still : ∀ w p, (w, p) ∈ lateEnqueues { f with late := f.late.eraseIdx n } →
        f.Sent p.requestId ∧ (f.apps w).requests.get? p.requestId = none ∧ p.requestId ≠ payload.requestId := by
      intro w p member
      obtain ⟨known, missing⟩ := tracked.late w p (enqueues.symm.subset (List.mem_cons_of_mem _ member))
      refine ⟨known, missing, fun same => once.1 ?_⟩
      exact List.mem_map.mpr ⟨(w, p), member, same⟩
    rcases WorkerApp.enqueueRequest_cases payload now (f.apps workerId) with ⟨raised, run⟩ | ⟨r, read, run⟩
    · dsimp only [LateCall.reach]
      rw [run, Function.update_eq_self]
      exact ⟨tracked.apps, tracked.assigned, tracked.handedOver, tracked.known, tracked.unique, tracked.named,
        fun w p member => ⟨(still w p member).1, (still w p member).2.1⟩, once.2⟩
    · have named := requestFromDict_requestId read
      dsimp only [LateCall.reach]
      rw [run]
      refine ⟨served_update tracked.apps (served.enqueue (by rw [named]; exact absent)), tracked.assigned, tracked.handedOver,
        tracked.known, tracked.unique, fun w requestId j known => ?_, fun w p member => ?_, once.2⟩
      · dsimp only at known
        rcases eq_or_ne w workerId with rfl | differ
        · rw [Function.update_self] at known
          dsimp only at known
          rw [Dict.get?_insert] at known
          split at known
          · rename_i same
            rw [same, named]
            exact sent
          · exact tracked.named w requestId j known
        · rw [Function.update_of_ne differ] at known
          exact tracked.named w requestId j known
      · obtain ⟨known, missing, other⟩ := still w p member
        refine ⟨known, ?_⟩
        dsimp only
        rcases eq_or_ne w workerId with rfl | differ
        · rw [Function.update_self]
          dsimp only
          rw [Dict.get?_insert, named, if_neg other]
          exact missing
        · rw [Function.update_of_ne differ]
          exact missing

/-- A new object with an unused id, before or without its hand-over. -/
theorem Tracked.create (tracked : f.Tracked) (idle : f.phase = .idle) {r : RequestRecord} {phase : PipelinePhase}
    (new : ∀ k < f.created, (f.objects k).requestId ≠ r.requestId)
    (here : phase = .idle ∨ ∃ workerId, phase = .assigned f.created workerId ∧ r.status = .assigned) :
    Tracked { f with objects := f.objects.put f.created r, created := f.created + 1, phase } := by
  have old : ∀ {k : ObjectId}, k < f.created → (f.objects.put f.created r) k = f.objects k :=
    fun inside => Objects.put_of_ne (Nat.ne_of_lt inside)
  have sent : ∀ {requestId : String}, f.Sent requestId →
      Sent { f with objects := f.objects.put f.created r, created := f.created + 1, phase } requestId := by
    rintro requestId ⟨k, inside, same, -⟩
    refine ⟨k, Nat.lt_succ_of_lt inside, ?_, fun workerId assigned => ?_⟩
    · dsimp only
      rw [old inside]
      exact same
    · rcases here with rfl | ⟨other, rfl, -⟩
      · cases assigned
      · cases assigned
        exact absurd inside (Nat.lt_irrefl _)
  refine ⟨tracked.apps, fun i workerId assigned => ?_, fun i workerId handed => ?_, fun workerId requestId k found => ?_,
    fun k inside k' inside' same => ?_, fun workerId requestId j found => sent (tracked.named workerId requestId j found),
    fun workerId payload member => ⟨sent (tracked.late workerId payload member).1, (tracked.late workerId payload member).2⟩, tracked.once⟩
  · rcases here with rfl | ⟨other, rfl, status⟩
    · cases assigned
    · cases assigned
      refine ⟨Nat.lt_succ_self _, ?_⟩
      dsimp only
      rw [Objects.put_self]
      exact status
  · rcases here with rfl | ⟨other, rfl, -⟩ <;> cases handed
  · obtain ⟨inside, same, stands⟩ := tracked.known workerId requestId k found
    refine ⟨Nat.lt_succ_of_lt inside, ?_, Or.inl ?_⟩
    · dsimp only
      rw [old inside]
      exact same
    · dsimp only
      rw [old inside]
      refine stands.resolve_right ?_
      rintro ⟨other, handed⟩
      cases idle.symm.trans handed
  · dsimp only at inside inside' same
    rcases Nat.lt_succ_iff_lt_or_eq.mp inside with before | rfl <;> rcases Nat.lt_succ_iff_lt_or_eq.mp inside' with before' | rfl
    · rw [old before, old before'] at same
      exact tracked.unique k before k' before' same
    · rw [old before, Objects.put_self] at same
      exact absurd same (new k before)
    · rw [old before', Objects.put_self] at same
      exact absurd same.symm (new k' before')
    · rfl

theorem Tracked.submit (tracked : f.Tracked) {s : Submission} {requestId modelId : String} {now : Seconds} {intake : Intake}
    (acts : f.act (.submit s requestId modelId now intake) = some f') : f'.Tracked := by
  simp only [act] at acts
  split at acts
  · rename_i idle
    split at acts
    · cases acts
      exact tracked
    · rename_i r made
      obtain ⟨named, received⟩ := Submission.request_new made
      split at acts
      · cases acts
        exact tracked
      · rename_i unused
        cases acts
        have new : ∀ k < f.created, (f.objects k).requestId ≠ requestId := by
          intro k inside same
          refine unused (List.any_eq_true.mpr ⟨k, List.mem_range.mpr inside, ?_⟩)
          exact decide_eq_true same
        unfold takeIn
        dsimp only
        split
        · rename_i workerId
          refine tracked.create idle (fun k inside => ?_) (Or.inr ⟨workerId, rfl, ?_⟩)
          · rw [RequestRecord.follow_requestId]
            exact fun same => new k inside (same.trans ((RequestRecord.follow_requestId _).trans named))
          · have queued : (r.follow now (Intake.placed workerId).states).status = .queued := by
              unfold Intake.states RequestRecord.follow
              rw [RequestRecord.transition_ok (by rw [received]; decide)]
              dsimp only
              unfold RequestRecord.follow
              rw [RequestRecord.transition_ok (by rw [RequestRecord.enter_status]; decide)]
              dsimp only
              rw [RequestRecord.follow_single (by rw [RequestRecord.enter_status]; decide)]
              rfl
            rw [RequestRecord.follow_single]
            · rfl
            · have same : (((r.follow now (Intake.placed workerId).states).assign (some workerId)).countAttempt).status = .queued := queued
              rw [same]
              decide
        · have fresh : ∀ k < f.created, (f.objects k).requestId ≠ (r.follow now intake.states).requestId := by
            intro k inside same
            exact new k inside (same.trans ((RequestRecord.follow_requestId _).trans named))
          have kept := tracked.create idle fresh (Or.inl idle)
          exact kept
  · cases acts

end Steps

end Fleet

end ServingPlatform
