import ServingPlatform.RequestStore.Stores

namespace ServingPlatform

open Wire

/-- The answers to a list of calls, each with the store after it. -/
def runCalls {σ : Type} (perform : σ → StoreCall → StoreAnswer × σ) : σ → List StoreCall → List (StoreAnswer × σ)
  | _, [] => []
  | store, call :: rest => perform store call :: runCalls perform (perform store call).2 rest

/-- The Redis store answers as the in-memory store does: errors of one class,
and the same requests without their payloads. -/
def StoreAnswer.Redacts : StoreAnswer → StoreAnswer → Prop
  | .done, .done => True
  | .raised e, .raised e' => e.kind = e'.kind
  | .record a, .record b => Option.Rel (fun a b => a.Same b.redacted) a b
  | .records as, .records bs => List.Forall₂ (fun a b => a.Same b.redacted) as bs
  | _, _ => False

namespace StoreCall

/-- Two calls that differ in the prompt of their request at most. -/
inductive SameButPrompt : StoreCall → StoreCall → Prop
  | create {a b} : RedisStore.SameButPrompt a b → SameButPrompt (create a) (create b)
  | get {requestId} : SameButPrompt (get requestId) (get requestId)
  | save {a b} : RedisStore.SameButPrompt a b → SameButPrompt (save a) (save b)
  | list {scan} : SameButPrompt (list scan) (list scan)

end StoreCall

namespace RedisStore

variable (text : PyText) (glob : String → String → Bool) (keyPrefix : String)

/-- What `SCAN` promises of a database that is not written to meanwhile: it
yields every key that matches, and none other. It may yield a key repeatedly. -/
def ScanOf (db : RedisDb) (scan : List String) : Prop :=
  ∀ k, k ∈ scan ↔ k ∈ db.keys ∧ glob (keyPrefix ++ "*") k = true

/-- Every listing of the run got a scan of the database as it was then. -/
def Documented : RedisDb → List StoreCall → Prop
  | _, [] => True
  | db, call :: rest =>
    (∀ scan, call = .list scan → ScanOf glob keyPrefix db scan) ∧ Documented (perform text keyPrefix db call).2 rest

/-- No scan of the run yields a key twice, and the prefix as a pattern matches
all the keys that are stored when a scan is made. -/
def Faithful : RedisDb → List StoreCall → Prop
  | _, [] => True
  | db, call :: rest =>
    (∀ scan, call = .list scan → scan.Nodup ∧ ∀ k ∈ db.keys, glob (keyPrefix ++ "*") k = true) ∧
      Faithful (perform text keyPrefix db call).2 rest

/-- The database holds the documents of the stored requests, under their keys. -/
structure Refines (db : RedisDb) (memory : InMemoryStore) : Prop where
  held : ∀ requestId, db.get? (key keyPrefix requestId) = (memory.get? requestId).map document
  keys : ∀ k ∈ db.keys, ∃ requestId ∈ memory.keys, k = key keyPrefix requestId
  named : ∀ requestId r, memory.get? requestId = some r → r.requestId = requestId

variable {text glob keyPrefix} {db : RedisDb} {memory : InMemoryStore}

theorem key_injective : Function.Injective (key keyPrefix) := fun a b same => by
  have lists : keyPrefix.toList ++ a.toList = keyPrefix.toList ++ b.toList := by
    rw [← String.toList_append, ← String.toList_append]
    exact congrArg String.toList same
  exact String.toList_inj.mp (List.append_cancel_left lists)

namespace Refines

theorem empty : Refines keyPrefix .empty .empty where
  held _ := rfl
  keys k member := by cases member
  named _ _ found := by cases found

theorem contains_key (h : Refines keyPrefix db memory) (requestId : String) :
    db.contains (key keyPrefix requestId) = memory.contains requestId := by
  unfold Dict.contains
  rw [h.held, Option.isSome_map]

theorem mem_keys (h : Refines keyPrefix db memory) {requestId : String} :
    key keyPrefix requestId ∈ db.keys ↔ requestId ∈ memory.keys := by
  rw [← Dict.contains_iff, ← Dict.contains_iff, h.contains_key]

/-- A request is written to both stores. -/
theorem insert (h : Refines keyPrefix db memory) (r : Wire.RequestRecord) :
    Refines keyPrefix (db.insert (key keyPrefix r.requestId) (document r)) (memory.insert r.requestId r) where
  held requestId := by
    rw [Dict.get?_insert, Dict.get?_insert]
    by_cases same : requestId = r.requestId
    · rw [if_pos same, if_pos (congrArg (key keyPrefix) same)]
      rfl
    · rw [if_neg same, if_neg fun equal => same (key_injective equal)]
      exact h.held requestId
  keys k member := by
    rcases Dict.mem_keys_insert.mp member with rfl | old
    · exact ⟨r.requestId, Dict.mem_keys_insert.mpr (Or.inl rfl), rfl⟩
    · obtain ⟨requestId, stored, same⟩ := h.keys k old
      exact ⟨requestId, Dict.mem_keys_insert.mpr (Or.inr stored), same⟩
  named requestId other found := by
    rw [Dict.get?_insert] at found
    split at found
    · rename_i same
      rw [← Option.some.inj found, same]
    · exact h.named requestId other found

/-- `create` raises in both stores or writes to both. -/
theorem create (h : Refines keyPrefix db memory) (r : Wire.RequestRecord) :
    (RedisStore.create keyPrefix db r).1.Redacts (memory.create r).1 ∧
      Refines keyPrefix (RedisStore.create keyPrefix db r).2 (memory.create r).2 := by
  unfold RedisStore.create InMemoryStore.create RedisDb.set
  rw [encode_eq]
  dsimp only
  rw [h.contains_key]
  by_cases stored : memory.contains r.requestId = true
  · rw [if_pos stored, if_pos (Or.inl ⟨rfl, stored⟩)]
    exact ⟨rfl, h⟩
  · have absent : ¬(true = true ∧ memory.contains r.requestId = true ∨
        false = true ∧ memory.contains r.requestId = false) := by
      rintro (⟨-, present⟩ | ⟨no, -⟩)
      · exact stored present
      · cases no
    rw [if_neg stored, if_neg absent]
    exact ⟨trivial, h.insert r⟩

/-- `save` raises in both stores or writes to both. -/
theorem save (h : Refines keyPrefix db memory) (r : Wire.RequestRecord) :
    (RedisStore.save keyPrefix db r).1.Redacts (memory.save r).1 ∧
      Refines keyPrefix (RedisStore.save keyPrefix db r).2 (memory.save r).2 := by
  unfold RedisStore.save InMemoryStore.save RedisDb.set
  rw [encode_eq]
  dsimp only
  rw [h.contains_key]
  by_cases stored : memory.contains r.requestId = true
  · have present : ¬(false = true ∧ memory.contains r.requestId = true ∨
        true = true ∧ memory.contains r.requestId = false) := by
      rintro (⟨no, -⟩ | ⟨-, absent⟩)
      · cases no
      · rw [stored] at absent
        cases absent
    rw [if_pos stored, if_neg present]
    exact ⟨trivial, h.insert r⟩
  · rw [if_neg stored, if_pos (Or.inr ⟨rfl, eq_false_of_ne_true stored⟩)]
    exact ⟨rfl, h⟩

theorem get (h : Refines keyPrefix db memory) (requestId : String) :
    (RedisStore.get text keyPrefix db requestId).Redacts (.record (memory.get? requestId)) := by
  unfold RedisStore.get
  rw [h.held]
  cases memory.get? requestId with
  | none => exact .none
  | some r =>
    dsimp only [Option.map_some]
    rw [decode_document]
    exact .some (restored_same r)

/-- The ids of stored requests lead back to them. -/
theorem filterMap_ids {rs : List Wire.RequestRecord} (stored : ∀ r ∈ rs, memory.get? r.requestId = some r) :
    (rs.map (·.requestId)).filterMap memory.get? = rs := by
  induction rs with
  | nil => rfl
  | cons r rest ih =>
    have first : memory.get? r.requestId = some r := stored r List.mem_cons_self
    rw [List.map_cons, List.filterMap_cons_some first, ih fun other member => stored other (List.mem_cons_of_mem _ member)]

theorem ids_filterMap (h : Refines keyPrefix db memory) {ids : List String}
    (stored : ∀ requestId ∈ ids, requestId ∈ memory.keys) :
    (ids.filterMap memory.get?).map (·.requestId) = ids := by
  induction ids with
  | nil => rfl
  | cons requestId rest ih =>
    obtain ⟨r, found⟩ := Dict.mem_keys_iff.mp (stored requestId List.mem_cons_self)
    rw [List.filterMap_cons_some found, List.map_cons, h.named requestId r found,
      ih fun other member => stored other (List.mem_cons_of_mem _ member)]

/-- A scan that yields stored keys reads the requests under them. -/
theorem scanned (text : PyText) (h : Refines keyPrefix db memory) {scan : List String} (stored : ∀ k ∈ scan, k ∈ db.keys) :
    ∃ rs : List Wire.RequestRecord, scan = (rs.map (·.requestId)).map (key keyPrefix) ∧
      (∀ r ∈ rs, memory.get? r.requestId = some r) ∧ RedisStore.scanned text db scan = .ok (rs.map restored) := by
  induction scan with
  | nil => exact ⟨[], rfl, fun _ member => absurd member List.not_mem_nil, rfl⟩
  | cons k rest ih =>
    obtain ⟨rs, same, found, read⟩ := ih fun other member => stored other (List.mem_cons_of_mem _ member)
    obtain ⟨requestId, known, rfl⟩ := h.keys k (stored k List.mem_cons_self)
    obtain ⟨r, first⟩ := Dict.mem_keys_iff.mp known
    have named : r.requestId = requestId := h.named requestId r first
    refine ⟨r :: rs, by rw [same, List.map_cons, List.map_cons, named], fun other member => ?_, ?_⟩
    · rcases List.mem_cons.mp member with rfl | later
      · rw [named]
        exact first
      · exact found other later
    · rw [RedisStore.scanned, h.held, first, read]
      dsimp only [Option.map_some]
      rw [decode_document]
      rfl

/-- The scan yields each stored key once if it does not repeat one and leaves none out. -/
theorem scan_perm_iff (h : Refines keyPrefix db memory) {scan ids : List String} (documented : ScanOf glob keyPrefix db scan)
    (same : scan = ids.map (key keyPrefix)) :
    ids.Perm memory.keys ↔ scan.Nodup ∧ ∀ k ∈ db.keys, glob (keyPrefix ++ "*") k = true := by
  have once : memory.keys.Nodup := memory.nodup
  have yields : ∀ requestId, key keyPrefix requestId ∈ scan ↔ requestId ∈ ids := fun requestId => by
    rw [same]
    exact List.mem_map_of_injective key_injective
  constructor
  · intro perm
    refine ⟨?_, fun k member => ?_⟩
    · rw [same]
      exact (perm.nodup_iff.mpr once).map key_injective
    · obtain ⟨requestId, known, rfl⟩ := h.keys k member
      exact ((documented _).mp ((yields requestId).mpr (perm.mem_iff.mpr known))).2
  · rintro ⟨distinct, covers⟩
    rw [same] at distinct
    refine (List.perm_ext_iff_of_nodup distinct.of_map once).mpr fun requestId => ?_
    rw [← yields, documented, h.mem_keys]
    exact ⟨And.left, fun known => ⟨known, covers _ (h.mem_keys.mpr known)⟩⟩

theorem ids_insertionSort (rs : List Wire.RequestRecord) :
    (rs.insertionSort fun a b => a.requestId ≤ b.requestId).map (·.requestId) =
      (rs.map (·.requestId)).insertionSort (· ≤ ·) :=
  List.map_insertionSort (r := fun a b : Wire.RequestRecord => a.requestId ≤ b.requestId) (s := (· ≤ ·)) _ _
    fun _ _ _ _ => Iff.rfl

theorem ids_memory_list (h : Refines keyPrefix db memory) :
    memory.list.map (·.requestId) = memory.keys.insertionSort (· ≤ ·) :=
  h.ids_filterMap fun _ member => (List.perm_insertionSort _ _).mem_iff.mp member

/-- Requests in the order of their ids have the ids of the listing if these are all the stored ids. -/
theorem sorted_eq_list_iff (h : Refines keyPrefix db memory) {rs : List Wire.RequestRecord} :
    (rs.insertionSort fun a b => a.requestId ≤ b.requestId).map (·.requestId) = memory.list.map (·.requestId) ↔
      (rs.map (·.requestId)).Perm memory.keys := by
  rw [ids_insertionSort, h.ids_memory_list]
  constructor
  · intro sorted
    exact (List.perm_insertionSort _ _).symm.trans ((List.Perm.of_eq sorted).trans (List.perm_insertionSort _ _))
  · intro perm
    exact ((List.perm_insertionSort _ _).trans (perm.trans (List.perm_insertionSort _ _).symm)).eq_of_pairwise'
      (List.pairwise_insertionSort _ _) (List.pairwise_insertionSort _ _)

/-- A listing of both stores agrees if the scan yields every stored key once. -/
theorem list (h : Refines keyPrefix db memory) {scan : List String} (documented : ScanOf glob keyPrefix db scan) :
    (RedisStore.list text db scan).Redacts (.records memory.list) ↔
      scan.Nodup ∧ ∀ k ∈ db.keys, glob (keyPrefix ++ "*") k = true := by
  obtain ⟨rs, same, stored, read⟩ := h.scanned text fun k member => ((documented k).mp member).1
  have answer : RedisStore.list text db scan =
      .records ((rs.insertionSort fun a b => a.requestId ≤ b.requestId).map restored) := by
    have kept := List.map_insertionSort (r := fun a b : Wire.RequestRecord => a.requestId ≤ b.requestId)
      (s := fun a b : Wire.RequestRecord => a.requestId ≤ b.requestId) restored rs fun _ _ _ _ => Iff.rfl
    unfold RedisStore.list
    rw [read, kept]
  have known : ∀ r ∈ rs.insertionSort fun a b => a.requestId ≤ b.requestId, memory.get? r.requestId = some r :=
    fun r member => stored r ((List.perm_insertionSort _ _).mem_iff.mp member)
  rw [answer, ← h.scan_perm_iff documented same, ← h.sorted_eq_list_iff]
  constructor
  · intro agree
    have ids : ∀ {as bs : List Wire.RequestRecord},
        List.Forall₂ (fun a b : Wire.RequestRecord => (restored a).Same b.redacted) as bs →
          as.map (·.requestId) = bs.map (·.requestId) := by
      intro as bs agree
      induction agree with
      | nil => rfl
      | @cons a b _ _ first _ ih =>
        have named : a.requestId = b.requestId := first.requestId
        rw [List.map_cons, List.map_cons, ih, named]
    exact ids (List.forall₂_map_left_iff.mp agree)
  · intro sameIds
    -- an id leads to one stored request, so the ids tell the lists apart
    have sameList : (rs.insertionSort fun a b => a.requestId ≤ b.requestId) = memory.list := by
      rw [← filterMap_ids known, sameIds, h.ids_memory_list]
      rfl
    rw [sameList]
    exact List.forall₂_map_left_iff.mpr (List.forall₂_same.mpr fun r _ => restored_same r)

/-- A call other than a listing gets the same answer from both stores; a
listing does if its scan is faithful. -/
theorem perform (text : PyText) (h : Refines keyPrefix db memory) (call : StoreCall)
    (documented : ∀ scan, call = .list scan → ScanOf glob keyPrefix db scan) :
    ((RedisStore.perform text keyPrefix db call).1.Redacts (memory.perform call).1 ↔
        ∀ scan, call = .list scan → scan.Nodup ∧ ∀ k ∈ db.keys, glob (keyPrefix ++ "*") k = true) ∧
      Refines keyPrefix (RedisStore.perform text keyPrefix db call).2 (memory.perform call).2 := by
  cases call with
  | create r => exact ⟨iff_of_true (h.create r).1 (fun _ no => by cases no), (h.create r).2⟩
  | get requestId => exact ⟨iff_of_true (h.get requestId) (fun _ no => by cases no), h⟩
  | save r => exact ⟨iff_of_true (h.save r).1 (fun _ no => by cases no), (h.save r).2⟩
  | list scan =>
    refine ⟨(h.list (documented scan rfl)).trans ⟨fun faithful _ same => ?_, fun faithful => faithful scan rfl⟩, h⟩
    cases same
    exact faithful

/-- The answers of a whole run agree if every listing of it is faithful. -/
theorem run_iff (h : Refines keyPrefix db memory) (calls : List StoreCall)
    (documented : Documented text glob keyPrefix db calls) :
    List.Forall₂ (fun redis memory => redis.1.Redacts memory.1) (runCalls (RedisStore.perform text keyPrefix) db calls)
        (runCalls InMemoryStore.perform memory calls) ↔ Faithful text glob keyPrefix db calls := by
  induction calls generalizing db memory with
  | nil => exact iff_of_true .nil trivial
  | cons call rest ih =>
    obtain ⟨scans, later⟩ := documented
    obtain ⟨agree, next⟩ := h.perform text call scans
    unfold runCalls Faithful
    rw [List.forall₂_cons, agree, ih next later]

end Refines

theorem perform_congr {call call' : StoreCall} (same : call.SameButPrompt call') (db : RedisDb) :
    perform text keyPrefix db call = perform text keyPrefix db call' := by
  cases same with
  | @create a b same =>
    have equal : create keyPrefix db a = create keyPrefix db b := by
      unfold create
      rw [encode_congr same, same.requestId]
    exact equal
  | get => rfl
  | @save a b same =>
    have equal : save keyPrefix db a = save keyPrefix db b := by
      unfold save
      rw [encode_congr same, same.requestId]
    exact equal
  | list => rfl

/-- Prompts leave no trace: not in what is stored after any step and not in an answer. -/
theorem runCalls_congr {calls calls' : List StoreCall} (same : List.Forall₂ StoreCall.SameButPrompt calls calls')
    (db : RedisDb) :
    runCalls (perform text keyPrefix) db calls = runCalls (perform text keyPrefix) db calls' := by
  induction same generalizing db with
  | nil => rfl
  | cons first _ ih =>
    unfold runCalls
    rw [perform_congr first, ih]

/-- From empty stores, the Redis store answers every call as the in-memory
store does, up to redaction, exactly if every scan is faithful; and what it
stores and answers does not depend on a prompt. -/
theorem redacts_iff_faithful (text : PyText) (glob : String → String → Bool) (keyPrefix : String) (calls : List StoreCall) :
    (Documented text glob keyPrefix .empty calls →
        (List.Forall₂ (fun redis memory => redis.1.Redacts memory.1) (runCalls (perform text keyPrefix) .empty calls)
            (runCalls InMemoryStore.perform .empty calls) ↔ Faithful text glob keyPrefix .empty calls)) ∧
      ∀ calls', List.Forall₂ StoreCall.SameButPrompt calls calls' →
        runCalls (perform text keyPrefix) .empty calls = runCalls (perform text keyPrefix) .empty calls' :=
  ⟨Refines.empty.run_iff calls, fun _ same => runCalls_congr same .empty⟩

theorem create_fresh {r : Wire.RequestRecord} (absent : db.contains (key keyPrefix r.requestId) = false) :
    create keyPrefix db r = (.done, db.insert (key keyPrefix r.requestId) (document r)) := by
  unfold create RedisDb.set
  rw [encode_eq]
  dsimp only
  rw [absent]
  rfl

namespace Sample

/-- The matches of a pattern whose only special character is the star at its end. -/
def prefixGlob (pattern k : String) : Bool := pattern.toList.dropLast.isPrefixOf k.toList

def reworded : Wire.RequestRecord :=
  { Wire.Sample.request with prompt := "another prompt", constructed := by decide, stamped := by decide }

def createdAndListed (r : Wire.RequestRecord) (scan : List String) : List StoreCall := [.create r, .list scan]

/-- A scan may yield the one key of a database any number of times. -/
theorem documented (scan : List String) (yields : ∀ k, k ∈ scan ↔ k = "llm:request:request") :
    Documented Wire.Sample.pyText prefixGlob "llm:request:" .empty (createdAndListed Wire.Sample.request scan) := by
  have stored : (create "llm:request:" .empty Wire.Sample.request).2.keys = ["llm:request:request"] := by
    rw [create_fresh rfl]
    rfl
  have covered : prefixGlob ("llm:request:" ++ "*") "llm:request:request" = true := by decide
  refine ⟨fun _ no => (by cases no), fun listed same k => ?_, trivial⟩
  have yielded : k ∈ listed ↔ k = "llm:request:request" := by
    rw [← StoreCall.list.inj same]
    exact yields k
  have held : k ∈ (create "llm:request:" .empty Wire.Sample.request).2.keys ↔ k = "llm:request:request" := by
    rw [stored, List.mem_singleton]
  exact yielded.trans ⟨fun equal => ⟨held.mpr equal, equal ▸ covered⟩, fun both => held.mp both.1⟩

end Sample

theorem redacts_iff_faithful_sample :
    (List.Forall₂ (fun redis memory => redis.1.Redacts memory.1)
          (runCalls (perform Wire.Sample.pyText "llm:request:") .empty
            (Sample.createdAndListed Wire.Sample.request ["llm:request:request"]))
          (runCalls InMemoryStore.perform .empty (Sample.createdAndListed Wire.Sample.request ["llm:request:request"])) ↔
        Faithful Wire.Sample.pyText Sample.prefixGlob "llm:request:" .empty
          (Sample.createdAndListed Wire.Sample.request ["llm:request:request"])) ∧
      runCalls (perform Wire.Sample.pyText "llm:request:") .empty
          (Sample.createdAndListed Wire.Sample.request ["llm:request:request"]) =
        runCalls (perform Wire.Sample.pyText "llm:request:") .empty
          (Sample.createdAndListed Sample.reworded ["llm:request:request"]) := by
  obtain ⟨agree, silent⟩ := redacts_iff_faithful Wire.Sample.pyText Sample.prefixGlob "llm:request:"
    (Sample.createdAndListed Wire.Sample.request ["llm:request:request"])
  exact ⟨agree (Sample.documented _ fun k => List.mem_singleton), silent _ (.cons (.create rfl) (.cons .list .nil))⟩

/-- A scan that yields the key of the one request twice: the request is listed twice. -/
theorem listing_repeats :
    Documented Wire.Sample.pyText Sample.prefixGlob "llm:request:" .empty
        (Sample.createdAndListed Wire.Sample.request ["llm:request:request", "llm:request:request"]) ∧
      ¬List.Forall₂ (fun redis memory => redis.1.Redacts memory.1)
        (runCalls (perform Wire.Sample.pyText "llm:request:") .empty
          (Sample.createdAndListed Wire.Sample.request ["llm:request:request", "llm:request:request"]))
        (runCalls InMemoryStore.perform .empty
          (Sample.createdAndListed Wire.Sample.request ["llm:request:request", "llm:request:request"])) := by
  have documented := Sample.documented ["llm:request:request", "llm:request:request"] fun k => by simp
  refine ⟨documented, fun agree => ?_⟩
  obtain ⟨-, listing, -⟩ := (Refines.empty.run_iff _ documented).mp agree
  have distinct : ["llm:request:request", "llm:request:request"].Nodup := (listing _ rfl).1
  simp at distinct

end RedisStore

end ServingPlatform
