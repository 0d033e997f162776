import ServingPlatform.Admission.RedisController

namespace ServingPlatform

namespace TenantLimits

/-- What a controller reads of a tenant's limits. -/
def admission (t : TenantLimits) : String × Nat × Nat × Nat :=
  (t.tenantId, t.maxConcurrentRequests, t.maxQueuedRequests, t.tokenQuota)

/-- The limits are within the range in which a script's numbers and its documents are exact. -/
def Exact (t : TenantLimits) : Prop :=
  t.maxConcurrentRequests < 10 ^ 14 ∧ t.maxQueuedRequests < 10 ^ 14 ∧ t.tokenQuota < 10 ^ 14

end TenantLimits

namespace TenantAdmissionController

/-- What the limits leave room for, in the order in which they are checked. -/
def room (m : TenantAdmissionController) (tenant : TenantLimits) (r : RequestRecord) : AdmissionDecision :=
  if (m.globalQueueCapacity : Int) ≤ m.queued.values.sum then ⟨false, "global_queue_full", "global queue is full"⟩
  else if (tenant.maxQueuedRequests : Int) ≤ count m.queued tenant.tenantId then
    ⟨false, "tenant_queue_full", "tenant queue is full"⟩
  else if (tenant.maxConcurrentRequests : Int) ≤ count m.running tenant.tenantId then
    ⟨false, "tenant_concurrency_limit", "tenant concurrency limit reached"⟩
  else if (tenant.tokenQuota : Int) < count m.tokens tenant.tenantId + r.estimatedTokens then
    ⟨false, "tenant_token_quota", "tenant token quota exceeded"⟩
  else ⟨true, "admitted", "request capacity reserved"⟩

/-- The document that stands for a reservation. -/
def shared (m : TenantAdmissionController) (reservation : AdmissionReservation) : SharedReservation where
  tenant := reservation.tenantId
  tokens := reservation.tokens
  running := reservation.running
  concurrencyLimit := (m.tenants.get? reservation.tenantId).elim 0 fun limits => limits.maxConcurrentRequests

section Shared

variable {m : TenantAdmissionController} {reservation : AdmissionReservation}

@[simp] theorem shared_tenant : (m.shared reservation).tenant = reservation.tenantId := rfl

@[simp] theorem shared_running : (m.shared reservation).running = reservation.running := rfl

@[simp] theorem shared_tokens : (m.shared reservation).tokens = reservation.tokens := rfl

end Shared

/-- The limits are within the exact range. -/
structure Exact (m : TenantAdmissionController) : Prop where
  capacity : m.globalQueueCapacity < 10 ^ 14
  tenants : ∀ tenant limits, m.tenants.get? tenant = some limits → limits.Exact

section Ranges

variable {m : TenantAdmissionController} {tenant : String} {limits : TenantLimits} {reservation : AdmissionReservation}
  {requestId : String}

theorem Balanced.nonneg (balanced : m.Balanced) (tenant : String) :
    0 ≤ count m.queued tenant ∧ 0 ≤ count m.running tenant ∧ 0 ≤ count m.tokens tenant := by
  rw [balanced.queued_eq, balanced.running_eq, balanced.tokens_eq]
  omega

theorem Balanced.sum_nonneg (balanced : m.Balanced) : 0 ≤ m.queued.values.sum := by
  rw [balanced.total_eq]
  omega

/-- The counters of a configured tenant are within the exact range. -/
theorem Balanced.counts_lt (balanced : m.Balanced) (exact : m.Exact) (found : m.tenants.get? tenant = some limits) :
    |count m.queued tenant| < 10 ^ 14 ∧ |count m.running tenant| < 10 ^ 14 ∧ |count m.tokens tenant| < 10 ^ 14 := by
  obtain ⟨queued, running, tokens⟩ := balanced.nonneg tenant
  obtain ⟨queuedLe, runningLe, tokensLe⟩ := balanced.limited tenant limits found
  obtain ⟨concurrency, queue, quota⟩ := exact.tenants tenant limits found
  rw [abs_of_nonneg queued, abs_of_nonneg running, abs_of_nonneg tokens]
  omega

theorem Balanced.sum_lt (balanced : m.Balanced) (exact : m.Exact) : |m.queued.values.sum| < 10 ^ 14 := by
  have capacity := balanced.capacity
  have bound := exact.capacity
  rw [abs_of_nonneg balanced.sum_nonneg]
  omega

/-- So are the tokens of a reservation. -/
theorem Balanced.tokens_lt (balanced : m.Balanced) (exact : m.Exact) (found : m.reserved.get? requestId = some reservation) :
    |(reservation.tokens : Int)| < 10 ^ 14 := by
  obtain ⟨limits, configured⟩ := balanced.configured reservation (Dict.mem_values_iff.mpr ⟨requestId, found⟩)
  have part := balanced.tokens.le_count (fun r => Int.natCast_nonneg r.tokens) found
  have whole := (balanced.limited _ _ configured).2.2
  have quota := (exact.tenants _ _ configured).2.2
  rw [abs_of_nonneg (Int.natCast_nonneg _)]
  unfold AdmissionReservation.tokenCount at part
  omega

end Ranges

end TenantAdmissionController

namespace AdmissionHash

open HashScript AdmissionField TenantAdmissionController

/-- The hash holds what the state of a controller with its counters in memory is. -/
structure Represents (hash : AdmissionHash) (m : TenantAdmissionController) : Prop where
  globalQueued : hash.stored (key .globalQueued) = some m.queued.values.sum
  queued : ∀ tenant, hash.stored (key (.queued tenant)) = some (count m.queued tenant)
  running : ∀ tenant, hash.stored (key (.running tenant)) = some (count m.running tenant)
  tokens : ∀ tenant, hash.stored (key (.tokens tenant)) = some (count m.tokens tenant)
  reserved : ∀ requestId, hash.get? (key (.reservation requestId)) =
    (m.reserved.get? requestId).map fun reservation => .document (m.shared reservation)
  documents : ∀ field document, hash.get? field = some (.document document) →
    ∃ requestId, field = key (.reservation requestId)

theorem key_ne {f g : AdmissionField} (differ : f ≠ g) : key f ≠ key g := fun same => differ (key_injective same)

section Fields

variable {hash : AdmissionHash} {f g : AdmissionField} {n : Int} {text : HashText SharedReservation}

theorem stored_insert : ScriptHash.stored (hash.insert (key g) (.decimal n)) (key f) =
    if f = g then some n else hash.stored (key f) := by
  simp only [ScriptHash.stored_insert_decimal, key_injective.eq_iff]

theorem stored_insert_ne (differ : f ≠ g) : ScriptHash.stored (hash.insert (key g) text) (key f) = hash.stored (key f) :=
  ScriptHash.stored_insert_of_ne (key_ne differ)

theorem stored_erase_ne (differ : f ≠ g) : ScriptHash.stored (hash.erase (key g)) (key f) = hash.stored (key f) :=
  ScriptHash.stored_erase_of_ne (key_ne differ)

theorem get?_insert_key : (hash.insert (key g) text).get? (key f) = if f = g then some text else hash.get? (key f) := by
  simp only [Dict.get?_insert, key_injective.eq_iff]

theorem get?_erase_key : (hash.erase (key g)).get? (key f) = if f = g then none else hash.get? (key f) := by
  simp only [Dict.get?_erase, key_injective.eq_iff]

/-- A tenant's counter is changed, in the hash as in memory. -/
theorem stored_bump {field : String → AdmissionField} {counter : Dict String Int} (injective : Function.Injective field)
    (held : ∀ tenant, hash.stored (key (field tenant)) = some (count counter tenant)) (changed : String) (change : Int)
    (tenant : String) :
    ScriptHash.stored (hash.insert (key (field changed)) (.decimal (count counter changed + change))) (key (field tenant)) =
      some (count (add counter changed change) tenant) := by
  rw [stored_insert, count_add, Tallies.bump_apply, held]
  by_cases same : changed = tenant
  · subst same
    simp
  · rw [if_neg fun fields => same (injective fields).symm, if_neg same, add_zero]

theorem queued_injective : Function.Injective AdmissionField.queued := fun _ _ same => AdmissionField.queued.inj same

theorem running_injective : Function.Injective AdmissionField.running := fun _ _ same => AdmissionField.running.inj same

theorem tokens_injective : Function.Injective AdmissionField.tokens := fun _ _ same => AdmissionField.tokens.inj same

end Fields

section Represents

variable {hash : AdmissionHash} {m : TenantAdmissionController} {r : RequestRecord} {requestId : String}
  {reservation : AdmissionReservation} {limits : TenantLimits}

/-- The documents of a hash whose counters were changed are those that it had. -/
theorem documents_insert_decimal {field : String} {n : Int}
    (documents : ∀ field document, hash.get? field = some (.document document) → ∃ id, field = key (.reservation id)) :
    ∀ other document, (hash.insert field (.decimal n)).get? other = some (.document document) →
      ∃ id, other = key (.reservation id) := by
  intro other document found
  rw [Dict.get?_insert] at found
  split at found
  · cases found
  · exact documents other document found

theorem documents_insert_document {d : SharedReservation}
    (documents : ∀ field document, hash.get? field = some (.document document) → ∃ id, field = key (.reservation id)) :
    ∀ other document, (hash.insert (key (.reservation requestId)) (.document d)).get? other = some (.document document) →
      ∃ id, other = key (.reservation id) := by
  intro other document found
  rw [Dict.get?_insert] at found
  split at found
  · rename_i same
    exact ⟨requestId, same⟩
  · exact documents other document found

theorem documents_erase {field : String}
    (documents : ∀ field document, hash.get? field = some (.document document) → ∃ id, field = key (.reservation id)) :
    ∀ other document, (hash.erase field).get? other = some (.document document) → ∃ id, other = key (.reservation id) := by
  intro other document found
  rw [Dict.get?_erase] at found
  split at found
  · cases found
  · exact documents other document found

/-- The hash after a reservation. -/
def withReservation (hash : AdmissionHash) (m : TenantAdmissionController) (requestId tenant : String) (tokens : Nat)
    (concurrencyLimit : Nat) : AdmissionHash :=
  (((hash.insert (key .globalQueued) (.decimal (m.queued.values.sum + 1))).insert (key (.queued tenant))
    (.decimal (count m.queued tenant + 1))).insert (key (.tokens tenant)) (.decimal (count m.tokens tenant + tokens))).insert
    (key (.reservation requestId)) (.document ⟨tenant, tokens, false, concurrencyLimit⟩)

theorem Represents.reserve (rep : Represents hash m) (found : m.tenants.get? r.tenantId = some limits)
    (named : limits.tenantId = r.tenantId) :
    Represents (withReservation hash m r.requestId r.tenantId r.estimatedTokens limits.maxConcurrentRequests) (m.reserve r) := by
  unfold withReservation TenantAdmissionController.reserve
  simp only [found, Option.elim_some, named]
  refine ⟨?_, fun tenant => ?_, fun tenant => ?_, fun tenant => ?_, fun id => ?_, ?_⟩
  · rw [stored_insert_ne (by simp), stored_insert, if_neg (by simp), stored_insert, if_neg (by simp), stored_insert,
      if_pos rfl, sum_add]
  · rw [stored_insert_ne (by simp), stored_insert, if_neg (by simp)]
    refine stored_bump queued_injective (fun tenant => ?_) _ _ _
    rw [stored_insert, if_neg (by simp), rep.queued]
  · rw [stored_insert_ne (by simp), stored_insert, if_neg (by simp), stored_insert, if_neg (by simp), stored_insert,
      if_neg (by simp), rep.running]
  · rw [stored_insert_ne (by simp)]
    refine stored_bump tokens_injective (fun tenant => ?_) _ _ _
    rw [stored_insert, if_neg (by simp), stored_insert, if_neg (by simp), rep.tokens]
  · rw [get?_insert_key]
    by_cases same : id = r.requestId
    · subst same
      rw [if_pos rfl, Dict.get?_insert_self]
      simp [shared, found]
    · rw [if_neg (by simpa using same), get?_insert_key, if_neg (by simp), get?_insert_key, if_neg (by simp),
        get?_insert_key, if_neg (by simp), rep.reserved, Dict.get?_insert_of_ne same]
      rfl
  · exact documents_insert_document (documents_insert_decimal (documents_insert_decimal
      (documents_insert_decimal rep.documents)))

/-- The hash after a reservation has started to run. -/
def withRunning (hash : AdmissionHash) (m : TenantAdmissionController) (requestId : String)
    (reservation : AdmissionReservation) : AdmissionHash :=
  let tenant := reservation.tenantId
  (((hash.insert (key .globalQueued) (.decimal (m.queued.values.sum + -1))).insert (key (.queued tenant))
    (.decimal (count m.queued tenant + -1))).insert (key (.running tenant)) (.decimal (count m.running tenant + 1))).insert
    (key (.reservation requestId)) (.document (m.shared { reservation with running := true }))

theorem Represents.markRunning (rep : Represents hash m) (queued : 0 < count m.queued reservation.tenantId) :
    Represents (withRunning hash m requestId reservation) { m with
      queued := if 0 < count m.queued reservation.tenantId then add m.queued reservation.tenantId (-1) else m.queued
      running := add m.running reservation.tenantId 1
      reserved := m.reserved.insert requestId { reservation with running := true } } := by
  unfold withRunning
  rw [if_pos queued]
  refine ⟨?_, fun tenant => ?_, fun tenant => ?_, fun tenant => ?_, fun id => ?_, ?_⟩
  · rw [stored_insert_ne (by simp), stored_insert, if_neg (by simp), stored_insert, if_neg (by simp), stored_insert,
      if_pos rfl, sum_add]
  · rw [stored_insert_ne (by simp), stored_insert, if_neg (by simp)]
    refine stored_bump queued_injective (fun tenant => ?_) _ _ _
    rw [stored_insert, if_neg (by simp), rep.queued]
  · rw [stored_insert_ne (by simp)]
    refine stored_bump running_injective (fun tenant => ?_) _ _ _
    rw [stored_insert, if_neg (by simp), stored_insert, if_neg (by simp), rep.running]
  · rw [stored_insert_ne (by simp), stored_insert, if_neg (by simp), stored_insert, if_neg (by simp), stored_insert,
      if_neg (by simp), rep.tokens]
  · rw [get?_insert_key]
    by_cases same : id = requestId
    · subst same
      rw [if_pos rfl, Dict.get?_insert_self]
      rfl
    · rw [if_neg (by simpa using same), get?_insert_key, if_neg (by simp), get?_insert_key, if_neg (by simp),
        get?_insert_key, if_neg (by simp), rep.reserved, Dict.get?_insert_of_ne same]
      rfl
  · exact documents_insert_document (documents_insert_decimal (documents_insert_decimal
      (documents_insert_decimal rep.documents)))

/-- The hash after a reservation that ran, or waited, is given up. -/
def withoutReservation (hash : AdmissionHash) (m : TenantAdmissionController) (requestId : String)
    (reservation : AdmissionReservation) : AdmissionHash :=
  let tenant := reservation.tenantId
  let moved := if reservation.running then hash.insert (key (.running tenant)) (.decimal (count m.running tenant + -1))
    else (hash.insert (key .globalQueued) (.decimal (m.queued.values.sum + -1))).insert (key (.queued tenant))
      (.decimal (count m.queued tenant + -1))
  (moved.insert (key (.tokens tenant)) (.decimal (count m.tokens tenant + -reservation.tokens))).erase
    (key (.reservation requestId))

theorem Represents.release (rep : Represents hash m) (found : m.reserved.get? requestId = some reservation) :
    Represents (withoutReservation hash m requestId reservation) (m.release requestId) := by
  unfold withoutReservation TenantAdmissionController.release
  rw [found]
  dsimp only
  refine ⟨?_, fun tenant => ?_, fun tenant => ?_, fun tenant => ?_, fun id => ?_, ?_⟩
  · rw [stored_erase_ne (by simp), stored_insert, if_neg (by simp)]
    cases reservation.running
    · simp only [Bool.false_eq_true, if_false]
      rw [stored_insert, if_neg (by simp), stored_insert, if_pos rfl, sum_add]
    · simp only [if_true]
      rw [stored_insert, if_neg (by simp), rep.globalQueued]
  · rw [stored_erase_ne (by simp), stored_insert, if_neg (by simp)]
    cases reservation.running
    · simp only [Bool.false_eq_true, if_false]
      refine stored_bump queued_injective (fun tenant => ?_) _ _ _
      rw [stored_insert, if_neg (by simp), rep.queued]
    · simp only [if_true]
      rw [stored_insert, if_neg (by simp), rep.queued]
  · rw [stored_erase_ne (by simp), stored_insert, if_neg (by simp)]
    cases reservation.running
    · simp only [Bool.false_eq_true, if_false]
      rw [stored_insert, if_neg (by simp), stored_insert, if_neg (by simp), rep.running]
    · simp only [if_true]
      exact stored_bump running_injective rep.running _ _ _
  · rw [stored_erase_ne (by simp)]
    refine stored_bump tokens_injective (fun tenant => ?_) _ _ _
    cases reservation.running
    · simp only [Bool.false_eq_true, if_false]
      rw [stored_insert, if_neg (by simp), stored_insert, if_neg (by simp), rep.tokens]
    · simp only [if_true]
      rw [stored_insert, if_neg (by simp), rep.tokens]
  · rw [get?_erase_key]
    by_cases same : id = requestId
    · subst same
      rw [if_pos rfl, Dict.get?_erase_self]
      rfl
    · rw [if_neg (by simpa using same), get?_insert_key, if_neg (by simp), Dict.get?_erase_of_ne same]
      cases reservation.running
      · simp only [Bool.false_eq_true, if_false]
        rw [get?_insert_key, if_neg (by simp), get?_insert_key, if_neg (by simp), rep.reserved]
        rfl
      · simp only [if_true]
        rw [get?_insert_key, if_neg (by simp), rep.reserved]
        rfl
  · refine documents_erase (documents_insert_decimal ?_)
    cases reservation.running
    · exact documents_insert_decimal (documents_insert_decimal rep.documents)
    · exact documents_insert_decimal rep.documents

end Represents

section Scripts

variable {numbers : ScriptNumbers} {hash : AdmissionHash} {m : TenantAdmissionController} {requestId tenant : String}
  {reservation : AdmissionReservation} {limits : TenantLimits} {r : RequestRecord}

theorem small_double {n : Int} (small : |n| < 10 ^ 14) : |n| ≤ 2 ^ 53 := by omega

theorem nearest_cast (numbers : ScriptNumbers) {n : Nat} (small : n < 10 ^ 14) : numbers.nearest n = n :=
  numbers.nearest_exact _ (small_double (by rw [abs_of_nonneg (Int.natCast_nonneg n)]; omega))

theorem encode_exact {d : SharedReservation} (tokens : |d.tokens| < 10 ^ 14) (limit : |d.concurrencyLimit| < 10 ^ 14) :
    encode numbers d = .document d := by
  rw [encode, numbers.transcribed_exact _ tokens, numbers.transcribed_exact _ limit]

/-- Rounding the tokens of a request does not change whether they fit in a quota. -/
theorem quota_lt_nearest_iff (numbers : ScriptNumbers) {held : Int} {tokens quota : Nat} (nonneg : 0 ≤ held)
    (small : quota < 10 ^ 14) :
    (quota : Int) < numbers.nearest (held + numbers.nearest tokens) ↔ (quota : Int) < held + tokens := by
  rw [numbers.lt_nearest_iff (abs_lt.mpr (by omega))]
  rcases Nat.lt_or_ge tokens (10 ^ 14) with few | many
  · rw [nearest_cast numbers few]
  · have least := numbers.nearest_mono ((10 ^ 14 : Nat) : Int) tokens (by omega)
    rw [numbers.nearest_exact _ (by decide)] at least
    omega

/-- The script that reserves answers what the limits leave room for, and writes the reservation. -/
theorem reserveScript_run (numbers : ScriptNumbers) (rep : Represents hash m) (balanced : m.Balanced) (exact : m.Exact)
    (found : m.tenants.get? r.tenantId = some limits) :
    reserveScript numbers r.requestId r.tenantId r.estimatedTokens m.globalQueueCapacity limits.maxQueuedRequests
        limits.maxConcurrentRequests limits.tokenQuota hash =
      if m.reserved.contains r.requestId then (.ok "already_admitted", hash)
      else (.ok (m.room limits r).code, if (m.room limits r).admitted then
        withReservation hash m r.requestId r.tenantId r.estimatedTokens limits.maxConcurrentRequests else hash) := by
  obtain ⟨queued, running, tokens⟩ := balanced.counts_lt exact found
  obtain ⟨concurrency, queue, quota⟩ := exact.tenants _ _ found
  have named := balanced.keyed _ _ found
  have sum := balanced.sum_lt exact
  have exists_eq : hash.contains (key (.reservation r.requestId)) = m.reserved.contains r.requestId := by
    rw [Dict.contains, rep.reserved, Option.isSome_map, Dict.contains]
  unfold reserveScript
  rw [Attempt.bind_ok (counter_run rep.globalQueued (small_double sum)),
    Attempt.bind_ok (counter_run (rep.queued _) (small_double queued)),
    Attempt.bind_ok (counter_run (rep.running _) (small_double running)),
    Attempt.bind_ok (counter_run (rep.tokens _) (small_double tokens)), Attempt.bind_ok hexists_run, exists_eq]
  cases m.reserved.contains r.requestId
  · rw [if_neg (by simp), if_neg (by simp), Attempt.bind_ok reaches_run, nearest_cast numbers exact.capacity]
    unfold room
    rw [named]
    by_cases full : (m.globalQueueCapacity : Int) ≤ m.queued.values.sum
    · simp [full]
    rw [if_neg (by simpa using full), if_neg full, Attempt.bind_ok reaches_run, nearest_cast numbers queue]
    by_cases queueFull : (limits.maxQueuedRequests : Int) ≤ count m.queued r.tenantId
    · simp [queueFull]
    rw [if_neg (by simpa using queueFull), if_neg queueFull, Attempt.bind_ok reaches_run,
      nearest_cast numbers concurrency]
    by_cases busy : (limits.maxConcurrentRequests : Int) ≤ count m.running r.tenantId
    · simp [busy]
    rw [if_neg (by simpa using busy), if_neg busy, Attempt.bind_ok exceeds_run, nearest_cast numbers quota]
    by_cases spent : (limits.tokenQuota : Int) < count m.tokens r.tenantId + r.estimatedTokens
    · simp [spent, quota_lt_nearest_iff numbers (balanced.nonneg r.tenantId).2.2 quota]
    have fits : r.estimatedTokens < 10 ^ 14 := by
      have nonneg := (balanced.nonneg r.tenantId).2.2
      omega
    have small : |(r.estimatedTokens : Int)| < 10 ^ 14 := by
      rw [abs_of_nonneg (Int.natCast_nonneg _)]
      omega
    rw [if_neg (by simpa [quota_lt_nearest_iff numbers (balanced.nonneg r.tenantId).2.2 quota] using spent), if_neg spent,
      nearest_cast numbers fits]
    have queuedStored : ScriptHash.stored (hash.insert (key .globalQueued) (.decimal (m.queued.values.sum + 1)))
        (key (.queued r.tenantId)) = some (count m.queued r.tenantId) := by
      rw [stored_insert, if_neg (by simp), rep.queued]
    have tokensStored : ScriptHash.stored ((hash.insert (key .globalQueued) (.decimal (m.queued.values.sum + 1))).insert
        (key (.queued r.tenantId)) (.decimal (count m.queued r.tenantId + 1))) (key (.tokens r.tenantId)) =
          some (count m.tokens r.tenantId) := by
      rw [stored_insert, if_neg (by simp), stored_insert, if_neg (by simp), rep.tokens]
    rw [Attempt.bind_ok (hincrby_run rep.globalQueued (by decide) sum),
      Attempt.bind_ok (hincrby_run queuedStored (by decide) queued),
      Attempt.bind_ok (hincrby_run tokensStored small tokens), Attempt.bind_ok hset_run]
    rw [if_pos rfl, encode_exact small (abs_lt.mpr (by dsimp only; omega))]
    rfl
  · rw [if_pos rfl, if_pos rfl]
    rfl

/-- The script that marks a reservation as running follows the reservation's own limit. -/
theorem markRunningScript_run (numbers : ScriptNumbers) (requestId : String) (rep : Represents hash m)
    (balanced : m.Balanced) (exact : m.Exact) :
    markRunningScript numbers requestId hash = match m.reserved.get? requestId with
      | none => (.ok "missing", hash)
      | some reservation =>
        if reservation.running then (.ok "already_running", hash)
        else if (m.shared reservation).concurrencyLimit ≤ count m.running reservation.tenantId then
          (.ok "tenant_concurrency_limit", hash)
        else (.ok "running", withRunning hash m requestId reservation) := by
  unfold markRunningScript
  rw [Attempt.bind_ok hget_run, rep.reserved]
  cases found : m.reserved.get? requestId with
  | none => rfl
  | some reservation =>
    obtain ⟨limits, configured⟩ := balanced.configured reservation (Dict.mem_values_iff.mpr ⟨requestId, found⟩)
    obtain ⟨queued, running, tokens⟩ := balanced.counts_lt exact configured
    obtain ⟨concurrency, queue, quota⟩ := exact.tenants _ _ configured
    have limit : (m.shared reservation).concurrencyLimit = limits.maxConcurrentRequests := by simp [shared, configured]
    dsimp only [Option.map_some]
    rw [Attempt.bind_ok decode_run]
    rw [shared_running, shared_tenant]
    by_cases runs : reservation.running = true
    · rw [if_pos runs, if_pos runs]
      rfl
    have queuedStored : ScriptHash.stored (hash.insert (key .globalQueued) (.decimal (m.queued.values.sum + -1)))
        (key (.queued reservation.tenantId)) = some (count m.queued reservation.tenantId) := by
      rw [stored_insert, if_neg (by simp), rep.queued]
    have runningStored : ScriptHash.stored ((hash.insert (key .globalQueued) (.decimal (m.queued.values.sum + -1))).insert
        (key (.queued reservation.tenantId)) (.decimal (count m.queued reservation.tenantId + -1)))
          (key (.running reservation.tenantId)) = some (count m.running reservation.tenantId) := by
      rw [stored_insert, if_neg (by simp), stored_insert, if_neg (by simp), rep.running]
    rw [if_neg runs, if_neg runs]
    rw [Attempt.bind_ok (counter_run (rep.running _) (small_double running)), Attempt.bind_ok reaches_run]
    by_cases busy : (m.shared reservation).concurrencyLimit ≤ count m.running reservation.tenantId
    · rw [if_pos (by simpa using busy), if_pos busy]
      rfl
    rw [if_neg (by simpa using busy), if_neg busy, Attempt.bind_ok (hincrby_run rep.globalQueued (by decide) (balanced.sum_lt exact))]
    rw [Attempt.bind_ok (hincrby_run queuedStored (by decide) queued)]
    rw [Attempt.bind_ok (hincrby_run runningStored (by decide) running), Attempt.bind_ok hset_run]
    rw [encode_exact (balanced.tokens_lt exact found) (by dsimp only; rw [limit]; exact abs_lt.mpr (by omega))]
    rfl

theorem releaseScript_run (numbers : ScriptNumbers) (requestId : String) (rep : Represents hash m)
    (balanced : m.Balanced) (exact : m.Exact) :
    releaseScript numbers requestId hash = match m.reserved.get? requestId with
      | none => (.ok 0, hash)
      | some reservation => (.ok 1, withoutReservation hash m requestId reservation) := by
  unfold releaseScript
  rw [Attempt.bind_ok hget_run, rep.reserved]
  cases found : m.reserved.get? requestId with
  | none => rfl
  | some reservation =>
    obtain ⟨limits, configured⟩ := balanced.configured reservation (Dict.mem_values_iff.mpr ⟨requestId, found⟩)
    obtain ⟨queued, running, tokens⟩ := balanced.counts_lt exact configured
    have small : |-(reservation.tokens : Int)| < 10 ^ 14 := by
      rw [abs_neg]
      exact balanced.tokens_lt exact found
    dsimp only [Option.map_some]
    rw [Attempt.bind_ok decode_run, shared_running, shared_tenant, shared_tokens]
    unfold withoutReservation
    by_cases runs : reservation.running = true
    · have tokensStored : ScriptHash.stored (hash.insert (key (.running reservation.tenantId))
          (.decimal (count m.running reservation.tenantId + -1))) (key (.tokens reservation.tenantId)) =
            some (count m.tokens reservation.tenantId) := by
        rw [stored_insert, if_neg (by simp), rep.tokens]
      dsimp only
      rw [if_pos runs, if_pos runs, Attempt.bind_ok (hincrby_run (rep.running _) (by decide) running),
        Attempt.bind_ok (hincrby_run tokensStored small tokens), Attempt.bind_ok hdel_run]
      rfl
    · have queuedStored : ScriptHash.stored (hash.insert (key .globalQueued) (.decimal (m.queued.values.sum + -1)))
          (key (.queued reservation.tenantId)) = some (count m.queued reservation.tenantId) := by
        rw [stored_insert, if_neg (by simp), rep.queued]
      have tokensStored : ScriptHash.stored ((hash.insert (key .globalQueued) (.decimal (m.queued.values.sum + -1))).insert
          (key (.queued reservation.tenantId)) (.decimal (count m.queued reservation.tenantId + -1)))
            (key (.tokens reservation.tenantId)) = some (count m.tokens reservation.tenantId) := by
        rw [stored_insert, if_neg (by simp), stored_insert, if_neg (by simp), rep.tokens]
      dsimp only
      rw [if_neg runs, if_neg runs, Attempt.bind_ok (hincrby_run rep.globalQueued (by decide) (balanced.sum_lt exact)),
        Attempt.bind_ok (hincrby_run queuedStored (by decide) queued),
        Attempt.bind_ok (hincrby_run tokensStored small tokens), Attempt.bind_ok hdel_run]
      rfl

theorem snapshotScript_run (tenant : String) (rep : Represents hash m) : ∃ queued running tokens,
    snapshotScript tenant hash = (.ok (queued, running, tokens), hash) ∧
      RedisAdmissionController.asInt queued = .ok (count m.queued tenant) ∧
      RedisAdmissionController.asInt running = .ok (count m.running tenant) ∧
      RedisAdmissionController.asInt tokens = .ok (count m.tokens tenant) := by
  have reads : ∀ {f : AdmissionField} {n : Int}, hash.stored (key f) = some n →
      RedisAdmissionController.asInt ((hash.get? (key f)).getD (.decimal 0)) = .ok n := by
    intro f n integer
    unfold ScriptHash.stored at integer
    split at integer
    · rename_i absent
      cases integer
      rw [absent]
      rfl
    · rename_i present
      cases integer
      rw [present]
      rfl
    · cases integer
  exact ⟨_, _, _, rfl, reads (rep.queued tenant), reads (rep.running tenant), reads (rep.tokens tenant)⟩

end Scripts

end AdmissionHash

namespace TenantAdmissionController

/-- Two controllers with the same limits and in the same state; the scheduling weights do not count. -/
structure Alike (m m' : TenantAdmissionController) : Prop where
  capacity : m.globalQueueCapacity = m'.globalQueueCapacity
  tenants : ∀ id, (m.tenants.get? id).map TenantLimits.admission = (m'.tenants.get? id).map TenantLimits.admission
  queued : m.queued = m'.queued
  running : m.running = m'.running
  tokens : m.tokens = m'.tokens
  reserved : m.reserved = m'.reserved

section Alike

variable {m m' : TenantAdmissionController} {r : RequestRecord} {model : Option ModelDefinition}
  {workers : List WorkerState} {now : Seconds}

/-- A tenant is configured on both sides with the same limits, or on neither. -/
theorem limits_cases {d d' : Dict String TenantLimits}
    (same : ∀ id, (d.get? id).map TenantLimits.admission = (d'.get? id).map TenantLimits.admission) (id : String) :
    d.get? id = none ∧ d'.get? id = none ∨ ∃ limits limits', d.get? id = some limits ∧ d'.get? id = some limits' ∧
      limits.tenantId = limits'.tenantId ∧ limits.maxConcurrentRequests = limits'.maxConcurrentRequests ∧
      limits.maxQueuedRequests = limits'.maxQueuedRequests ∧ limits.tokenQuota = limits'.tokenQuota := by
  have here := same id
  cases found : d.get? id with
  | none =>
    rw [found] at here
    exact Or.inl ⟨rfl, Option.map_eq_none_iff.mp here.symm⟩
  | some limits =>
    rw [found] at here
    obtain ⟨limits', found', equal⟩ := Option.map_eq_some_iff.mp here.symm
    simp only [TenantLimits.admission, Prod.mk.injEq] at equal
    exact Or.inr ⟨limits, limits', rfl, found', equal.1.symm, equal.2.1.symm, equal.2.2.1.symm, equal.2.2.2.symm⟩

theorem Alike.decision (alike : Alike m m') : m.decision r model workers now = m'.decision r model workers now := by
  unfold TenantAdmissionController.decision
  rcases limits_cases alike.tenants r.tenantId with ⟨absent, absent'⟩ |
    ⟨limits, limits', found, found', named, concurrency, queue, quota⟩
  · rw [absent, absent']
  · rw [found, found']
    cases model with
    | none => rfl
    | some model => simp only [alike.capacity, alike.queued, alike.running, alike.tokens, named, concurrency, queue, quota]

theorem Alike.reserve (alike : Alike m m') : Alike (m.reserve r) (m'.reserve r) := by
  unfold TenantAdmissionController.reserve
  rcases limits_cases alike.tenants r.tenantId with ⟨absent, absent'⟩ |
    ⟨limits, limits', found, found', named, -, -, -⟩
  · rw [absent, absent', alike.queued, alike.tokens, alike.reserved]
    exact ⟨alike.capacity, alike.tenants, rfl, alike.running, rfl, rfl⟩
  · rw [found, found', Option.elim_some, Option.elim_some, named, alike.queued, alike.tokens, alike.reserved]
    exact ⟨alike.capacity, alike.tenants, rfl, alike.running, rfl, rfl⟩

theorem Alike.decide (alike : Alike m m') (r : RequestRecord) (model : Option ModelDefinition)
    (workers : List WorkerState) (now : Seconds) :
    Alike (m.decide r model workers now).2 (m'.decide r model workers now).2 := by
  unfold TenantAdmissionController.decide
  rw [alike.reserved, alike.decision]
  split
  · exact alike
  · dsimp only
    split
    · exact alike.reserve
    · exact alike

theorem Alike.markRunning (alike : Alike m m') (requestId : String) :
    Alike (m.markRunning requestId).2 (m'.markRunning requestId).2 := by
  unfold TenantAdmissionController.markRunning
  rw [alike.reserved]
  cases m'.reserved.get? requestId with
  | none => exact alike
  | some reservation =>
    dsimp only
    split
    · exact alike
    rcases limits_cases alike.tenants reservation.tenantId with ⟨absent, absent'⟩ |
      ⟨limits, limits', found, found', -, concurrency, -, -⟩
    · rw [absent, absent']
      exact alike
    · rw [found, found']
      dsimp only
      rw [concurrency, alike.running]
      split
      · exact alike
      · dsimp only
        rw [alike.queued]
        exact ⟨alike.capacity, alike.tenants, rfl, rfl, alike.tokens, rfl⟩

theorem Alike.release (alike : Alike m m') (requestId : String) : Alike (m.release requestId) (m'.release requestId) := by
  unfold TenantAdmissionController.release
  rw [alike.reserved]
  cases m'.reserved.get? requestId with
  | none => exact alike
  | some reservation =>
    dsimp only
    rw [alike.queued, alike.running, alike.tokens]
    exact ⟨alike.capacity, alike.tenants, rfl, rfl, rfl, rfl⟩

theorem Alike.performAll (alike : Alike m m') (calls : List AdmissionCall) :
    Alike (m.performAll calls) (m'.performAll calls) := by
  induction calls generalizing m m' with
  | nil => exact alike
  | cons call rest ih =>
    refine ih ?_
    cases call with
    | decide r model workers now => exact alike.decide r model workers now
    | markRunning requestId => exact alike.markRunning requestId
    | release requestId => exact alike.release requestId
    | snapshot tenantId => exact alike

/-- A hash stands for every controller that is alike. -/
theorem Alike.represents {hash : AdmissionHash} (alike : Alike m m') (rep : AdmissionHash.Represents hash m) :
    AdmissionHash.Represents hash m' := by
  have sharedEq : m.shared = m'.shared := by
    funext reservation
    unfold shared
    rcases limits_cases alike.tenants reservation.tenantId with ⟨absent, absent'⟩ |
      ⟨limits, limits', found, found', -, concurrency, -, -⟩
    · rw [absent, absent']
    · rw [found, found', Option.elim_some, Option.elim_some, concurrency]
  refine ⟨?_, fun tenant => ?_, fun tenant => ?_, fun tenant => ?_, fun id => ?_, rep.documents⟩
  · rw [← alike.queued, rep.globalQueued]
  · rw [← alike.queued, rep.queued]
  · rw [← alike.running, rep.running]
  · rw [← alike.tokens, rep.tokens]
  · rw [← alike.reserved, ← sharedEq, rep.reserved]

end Alike

end TenantAdmissionController

end ServingPlatform
