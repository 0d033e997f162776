import ServingPlatform.Transport.Encodings

namespace ServingPlatform

open Wire

/-- A call of a request store. A listing comes with the keys that the Redis server's scan yields for it. -/
inductive StoreCall
  | create (request : Wire.RequestRecord)
  | get (requestId : String)
  | save (request : Wire.RequestRecord)
  | list (scan : List String)

inductive StoreAnswer
  | done
  | raised (raised : Raised)
  | record (request : Option Wire.RequestRecord)
  | records (requests : List Wire.RequestRecord)

def requestExists (requestId : String) : Raised := valueError s!"request already exists: {requestId}"

def requestMissing (requestId : String) : Raised := keyError s!"request does not exist: {requestId}"

/-- `InMemoryRequestStateStore`, by the ids of its requests. -/
abbrev InMemoryStore := Dict String Wire.RequestRecord

namespace InMemoryStore

def create (m : InMemoryStore) (request : Wire.RequestRecord) : StoreAnswer × InMemoryStore :=
  if m.contains request.requestId then (.raised (requestExists request.requestId), m)
  else (.done, m.insert request.requestId request)

def save (m : InMemoryStore) (request : Wire.RequestRecord) : StoreAnswer × InMemoryStore :=
  if m.contains request.requestId then (.done, m.insert request.requestId request)
  else (.raised (requestMissing request.requestId), m)

def list (m : InMemoryStore) : List Wire.RequestRecord := (m.keys.insertionSort (· ≤ ·)).filterMap m.get?

def perform (m : InMemoryStore) : StoreCall → StoreAnswer × InMemoryStore
  | .create request => m.create request
  | .get requestId => (.record (m.get? requestId), m)
  | .save request => m.save request
  | .list _ => (.records m.list, m)

end InMemoryStore

/-- What a Redis server holds for the store: documents under their keys. -/
abbrev RedisDb := Dict String Json

/-- `SET key value [NX | XX]` -/
def RedisDb.set (db : RedisDb) (key : String) (value : Json) (nx xx : Bool) : Bool × RedisDb :=
  if nx = true ∧ db.contains key = true ∨ xx = true ∧ db.contains key = false then (false, db)
  else (true, db.insert key value)

namespace RedisStore

/-- `json.dumps(value, separators=(",", ":"), sort_keys=True)` -/
def redisJson : JsonOptions := ⟨true, true⟩

/-- The dictionary that is stored of a request. -/
def metadata (r : RequestFields) : Payload := [
  ("request_id", .str r.requestId),
  ("tenant_id", .str r.tenantId),
  ("model_id", .str r.modelId),
  ("prompt_tokens", .int r.promptTokens),
  ("max_new_tokens", .int r.maxNewTokens),
  ("priority", .int r.priority),
  ("deadline", .float r.deadline),
  ("stream", .bool r.stream),
  ("temperature", .float r.temperature),
  ("created_at", .float r.createdAt),
  ("status", .str r.status.value),
  ("assigned_worker_id", ofOptional .str r.assignedWorkerId),
  ("attempt_count", .int r.attemptCount),
  ("retry_reasons", ofStrings r.retryReasons),
  ("transition_timestamps", .dict (ofTimestamps r.transitionTimestamps))]

/-- `_encode` -/
def encode (r : Wire.RequestRecord) : Except Raised Json := Json.dumps redisJson (.dict (metadata r.toRequestFields))

def asBool : PyValue → Except Raised Bool
  | .bool b => .ok b
  | value => .error (typeError s!"bool field holds a '{value.typeName}'")

/-- A number counts by its value, also where it is an integer. -/
def asFloat : PyValue → Except Raised PyFloat
  | .float x => .ok x
  | .int n => .ok (.finite n)
  | value => .error (typeError s!"float field holds a '{value.typeName}'")

def asDict : PyValue → Except Raised Payload
  | .dict entries => .ok entries
  | value => .error (typeError s!"'{value.typeName}' object is not subscriptable")

variable (text : PyText)

/-- `{RequestState(state): timestamp for state, timestamp in entries}` -/
def timestamps (read : Dict RequestState PyFloat) : Payload → Except Raised (Dict RequestState PyFloat)
  | [] => .ok read
  | (name, value) :: rest =>
    match member text "RequestState" requestState (.str name) with
    | .error raised => .error raised
    | .ok state =>
      match asFloat value with
      | .error raised => .error raised
      | .ok at_ => timestamps (read.insert state at_) rest

/-- What `_decode` makes of the dictionary in a document. -/
def fromMetadata (payload : Payload) : Except Raised Wire.RequestRecord := do
  let item := PyValue.getItem payload
  let fields : RequestFields := {
    requestId := ← asStr (← item "request_id")
    tenantId := ← asStr (← item "tenant_id")
    modelId := ← asStr (← item "model_id")
    prompt := "[redacted]"
    promptTokens := ← asInt (← item "prompt_tokens")
    maxNewTokens := ← asInt (← item "max_new_tokens")
    priority := ← asInt (← item "priority")
    deadline := ← asFloat (← item "deadline")
    stream := ← asBool (← item "stream")
    temperature := ← asFloat (← item "temperature")
    createdAt := ← asFloat (← item "created_at")
    status := ← member text "RequestState" requestState (← item "status")
    assignedWorkerId := ← asOptional asStr (← item "assigned_worker_id")
    attemptCount := ← asInt (← item "attempt_count")
    retryReasons := ← strings (← item "retry_reasons")
    payloadAvailable := false
    transitionTimestamps := ← timestamps text .empty (← Wire.entries (← item "transition_timestamps")) }
  fields.construct

/-- `_decode` -/
def decode (document : Json) : Except Raised Wire.RequestRecord :=
  match asDict (Json.loads document) with
  | .error raised => .error raised
  | .ok payload => fromMetadata text payload

variable (keyPrefix : String) (db : RedisDb)

/-- `_key` -/
def key (requestId : String) : String := keyPrefix ++ requestId

def create (request : Wire.RequestRecord) : StoreAnswer × RedisDb :=
  match encode request with
  | .error raised => (.raised raised, db)
  | .ok document =>
    match db.set (key keyPrefix request.requestId) document true false with
    | (true, db) => (.done, db)
    | (false, db) => (.raised (requestExists request.requestId), db)

def get (requestId : String) : StoreAnswer :=
  match db.get? (key keyPrefix requestId) with
  | none => .record none
  | some document =>
    match decode text document with
    | .error raised => .raised raised
    | .ok request => .record (some request)

def save (request : Wire.RequestRecord) : StoreAnswer × RedisDb :=
  match encode request with
  | .error raised => (.raised raised, db)
  | .ok document =>
    match db.set (key keyPrefix request.requestId) document false true with
    | (true, db) => (.done, db)
    | (false, db) => (.raised (requestMissing request.requestId), db)

/-- The records under the keys that a scan yields, of those that are still there. -/
def scanned : List String → Except Raised (List Wire.RequestRecord)
  | [] => .ok []
  | key :: rest =>
    match db.get? key with
    | none => scanned rest
    | some document =>
      match decode text document, scanned rest with
      | .ok request, .ok requests => .ok (request :: requests)
      | .error raised, _ | _, .error raised => .error raised

def list (scan : List String) : StoreAnswer :=
  match scanned text db scan with
  | .error raised => .raised raised
  | .ok requests => .records (requests.insertionSort fun a b => a.requestId ≤ b.requestId)

def perform : StoreCall → StoreAnswer × RedisDb
  | .create request => create keyPrefix db request
  | .get requestId => (get text keyPrefix db requestId, db)
  | .save request => save keyPrefix db request
  | .list scan => (list text db scan, db)

end RedisStore

end ServingPlatform

namespace ServingPlatform

open Wire

namespace Wire.RequestRecord

/-- `a == b`: a dictionary counts by its entries, not by their order. -/
structure Same (a b : Wire.RequestRecord) : Prop where
  fields : { a.toRequestFields with transitionTimestamps := .empty } =
    { b.toRequestFields with transitionTimestamps := .empty }
  timestamps : ∀ state, a.transitionTimestamps.get? state = b.transitionTimestamps.get? state

theorem Same.requestId {a b : Wire.RequestRecord} (same : a.Same b) : a.requestId = b.requestId := by
  have equal := congrArg RequestFields.requestId same.fields
  exact equal

theorem redacted_checks (r : Wire.RequestRecord) (timestamps : Dict RequestState PyFloat) :
    RequestFields.checks { r.toRequestFields with
      prompt := "[redacted]", payloadAvailable := false, transitionTimestamps := timestamps } = .ok () := by
  have checked := r.constructed
  have marked : isBlank "[redacted]" = false := by decide
  unfold RequestFields.checks at checked ⊢
  dsimp only at checked ⊢
  rw [marked]
  split at checked
  · cases checked
  · rename_i identified
    rw [if_neg identified]
    split at checked
    · cases checked
    · rename_i sound
      rw [if_neg]
      rintro (blank | unsound)
      · cases blank
      · exact sound (Or.inr unsound)

/-- The request as a store without prompts may give it. -/
def redacted (r : Wire.RequestRecord) : Wire.RequestRecord where
  toRequestFields := { r.toRequestFields with prompt := "[redacted]", payloadAvailable := false }
  constructed := r.redacted_checks r.transitionTimestamps
  stamped := r.stamped

end Wire.RequestRecord

namespace RedisStore

variable {text : PyText}

/-- The timestamps by the names of their states, which is how a document has them. -/
def sortedTimestamps (t : Dict RequestState PyFloat) : Dict RequestState PyFloat where
  entries := t.entries.insertionSort fun a b => a.1.value ≤ b.1.value
  nodup := ((List.perm_insertionSort _ t.entries).map Prod.fst).nodup_iff.mpr t.nodup

theorem get?_sortedTimestamps (t : Dict RequestState PyFloat) (state : RequestState) :
    (sortedTimestamps t).get? state = t.get? state :=
  Dict.lookupEntry_perm (List.perm_insertionSort _ t.entries) (sortedTimestamps t).nodup state

/-- What is read back of a request. -/
def restored (r : Wire.RequestRecord) : Wire.RequestRecord where
  toRequestFields := { r.toRequestFields with
    prompt := "[redacted]", payloadAvailable := false, transitionTimestamps := sortedTimestamps r.transitionTimestamps }
  constructed := r.redacted_checks _
  stamped := by
    have stamped := r.stamped
    unfold Dict.contains at stamped ⊢
    dsimp only
    rw [get?_sortedTimestamps]
    exact stamped

theorem restored_same (r : Wire.RequestRecord) : (restored r).Same r.redacted :=
  ⟨rfl, get?_sortedTimestamps r.transitionTimestamps⟩

theorem arranged_ofStrings (o : JsonOptions) (l : List String) : (ofStrings l).arranged o = ofStrings l := by
  have items : PyValue.arrangedItems o (l.map .str) = l.map .str := by
    induction l with
    | nil => rfl
    | cons s rest ih => rw [List.map_cons, PyValue.arrangedItems, ih, PyValue.arranged] <;> simp
  unfold ofStrings
  rw [PyValue.arranged, items]

theorem arranged_ofOptional (o : JsonOptions) (s : Option String) :
    (ofOptional .str s).arranged o = ofOptional .str s := by
  cases s <;> rfl

theorem metadata_names (r : RequestFields) : ((metadata r).map Prod.fst).Nodup := by
  simp only [metadata, List.map_cons, List.map_nil]
  decide

/-- A document of a request can always be written. -/
theorem metadata_plain (r : RequestFields) : PyValue.Plain redisJson (.dict (metadata r)) := by
  have float : ∀ x : PyFloat, (x.isFinite || redisJson.allowNan) = true := fun x => Bool.or_true _
  have str : ∀ s, PyValue.Plain redisJson (ofOptional .str s) := plain_ofOptional fun _ => trivial
  have stamps : PyValue.Plain redisJson (.dict (ofTimestamps r.transitionTimestamps)) :=
    plain_ofTimestamps r.transitionTimestamps fun at_ _ => float at_
  refine ⟨metadata_names r, ?_⟩
  simp only [metadata, PyValue.PlainEntries, PyValue.Plain, plain_ofStrings, str, float, and_true, true_and]
  exact stamps

/-- The dictionary that is read from a request's document. -/
def sortedMetadata (r : RequestFields) : Payload :=
  Json.sortMembers redisJson (PyValue.arrangedEntries redisJson (metadata r))

/-- The dictionary with only its timestamps sorted: a field is found by its name. -/
theorem arranged_metadata (r : RequestFields) :
    PyValue.arrangedEntries redisJson (metadata r) =
      metadata { r with transitionTimestamps := sortedTimestamps r.transitionTimestamps } := by
  have floats : PyValue.arrangedEntries redisJson (ofTimestamps r.transitionTimestamps) =
      ofTimestamps r.transitionTimestamps := by
    unfold ofTimestamps
    rw [PyValue.arrangedEntries_eq_map, List.map_map]
    rfl
  have sorted : Json.sortMembers redisJson (ofTimestamps r.transitionTimestamps) =
      ofTimestamps (sortedTimestamps r.transitionTimestamps) := by
    unfold Json.sortMembers ofTimestamps sortedTimestamps
    refine (if_pos rfl).trans ?_
    exact (List.map_insertionSort (r := fun a b : RequestState × PyFloat => a.1.value ≤ b.1.value)
      (s := fun a b : String × PyValue => a.1 ≤ b.1) _ _ fun _ _ _ _ => Iff.rfl).symm
  simp only [metadata, PyValue.arrangedEntries, PyValue.arranged, arranged_ofStrings, arranged_ofOptional, floats, sorted]

theorem getItem_sortedMetadata (r : RequestFields) (name : String) :
    PyValue.getItem (sortedMetadata r) name =
      PyValue.getItem (metadata { r with transitionTimestamps := sortedTimestamps r.transitionTimestamps }) name := by
  unfold PyValue.getItem sortedMetadata
  rw [arranged_metadata]
  rw [← Dict.lookupEntry_perm (Json.sortMembers_perm _).symm (metadata_names _)]

theorem timestamps_ofTimestamps (t : Dict RequestState PyFloat) :
    timestamps text .empty (ofTimestamps t) = .ok t := by
  have same : ∀ (l : List (RequestState × PyFloat)) (read : Dict RequestState PyFloat),
      timestamps text read (l.map fun e => (e.1.value, .float e.2)) =
        Wire.timestamps text read (l.map fun e => (e.1.value, .float e.2)) := by
    intro l
    induction l with
    | nil => exact fun _ => rfl
    | cons e rest ih =>
      intro read
      simp only [List.map_cons, timestamps, Wire.timestamps, member_requestState, asFloat, PyValue.toFloat, ih]
  exact (same t.entries .empty).trans (Wire.timestamps_ofTimestamps t)

/-- The decoder undoes the encoder up to the prompt, which it never sees. -/
theorem fromMetadata_sortedMetadata (r : Wire.RequestRecord) :
    fromMetadata text (sortedMetadata r.toRequestFields) = .ok (restored r) := by
  have items : PyValue.getItem (sortedMetadata r.toRequestFields) = PyValue.getItem (metadata (restored r).toRequestFields) :=
    funext (getItem_sortedMetadata r.toRequestFields)
  unfold fromMetadata
  rw [items]
  simp only [metadata, PyValue.getItem, lookup_self, lookup_next, String.reduceEq, asStr, asInt, asFloat, asBool,
    asOptional_str, strings_ofStrings, member_requestState, entries_dict, timestamps_ofTimestamps, ok_bind]
  exact (restored r).construct

/-- The document of a request. -/
def document (r : Wire.RequestRecord) : Json :=
  match encode r with
  | .ok document => document
  | .error _ => .null

theorem encode_eq (r : Wire.RequestRecord) : encode r = .ok (document r) := by
  obtain ⟨written, encoded, -⟩ := Json.loads_dumps (.dict (metadata r.toRequestFields)) (metadata_plain _)
  unfold document encode
  rw [encoded]

theorem decode_document (r : Wire.RequestRecord) : decode text (document r) = .ok (restored r) := by
  obtain ⟨written, encoded, read⟩ := Json.loads_dumps (.dict (metadata r.toRequestFields)) (metadata_plain _)
  have same : document r = written := by
    unfold document encode
    rw [encoded]
  unfold decode
  rw [same, read, PyValue.arranged]
  exact fromMetadata_sortedMetadata r

/-- Two requests that differ in their prompts at most. -/
def SameButPrompt (a b : Wire.RequestRecord) : Prop :=
  { a.toRequestFields with prompt := "" } = { b.toRequestFields with prompt := "" }

theorem SameButPrompt.requestId {a b : Wire.RequestRecord} (same : SameButPrompt a b) : a.requestId = b.requestId := by
  have equal := congrArg RequestFields.requestId same
  exact equal

/-- A document says nothing of the prompt. -/
theorem encode_congr {a b : Wire.RequestRecord} (same : SameButPrompt a b) : encode a = encode b := by
  have written : metadata a.toRequestFields = metadata b.toRequestFields :=
    calc metadata a.toRequestFields = metadata { a.toRequestFields with prompt := "" } := rfl
      _ = metadata { b.toRequestFields with prompt := "" } := congrArg metadata same
      _ = metadata b.toRequestFields := rfl
  unfold encode
  rw [written]

end RedisStore

end ServingPlatform
