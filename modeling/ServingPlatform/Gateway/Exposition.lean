import Mathlib.Data.List.Forall2
import Mathlib.Data.List.Sort
import ServingPlatform.Errors
import ServingPlatform.Library.Decimal

namespace ServingPlatform

/-- The numeric leaves of a snapshot. -/
inductive MetricNumber
  | bool (b : Bool)
  | int (n : Int)
  | float (x : Binary64.Double)

/-- A nested metrics snapshot; what is neither a mapping nor a number is not rendered. -/
inductive MetricsSnapshot
  | mapping (entries : List (String × MetricsSnapshot))
  | number (x : MetricNumber)
  | other

/-- A sample as `visit` collects it. -/
abbrev Sample := List Char × Binary64.Double

/-- `re.sub(r"[^a-zA-Z0-9_]", "_", part).strip("_")`. -/
def cleaned (part : String) : List Char :=
  ((part.toList.map fun c => if c.isAlphanum ∨ c = '_' then c else '_').dropWhile (· = '_')).rdropWhile (· = '_')

/-- `_metric_name`. -/
def metricName (path : List String) : List Char :=
  "llm_scheduler_".toList ++
    ['_'].intercalate (((path.map cleaned).filter (· ≠ [])).map fun part => part.map Char.toLower)

/-- `float(value)`. -/
def MetricNumber.toDouble : MetricNumber → Except Raised Binary64.Double
  | .bool b => .ok (.finite false (if b then ⟨1, 0⟩ else ⟨0, 0⟩))
  | .int n =>
    match Binary64.ofInt n with
    | some x => .ok x
    | none => .error ⟨.overflowError, "int too large to convert to float"⟩
  | .float x => .ok x

namespace MetricsSnapshot

mutual

/-- The samples of a value, those of a mapping in the order of its keys. -/
def visit (path : List String) : MetricsSnapshot → Except Raised (List Sample)
  | .mapping entries =>
    match visitEntries path entries with
    | .ok visited => .ok ((visited.insertionSort fun a b => a.1 ≤ b.1).flatMap Prod.snd)
    | .error raised => .error raised
  | .number x =>
    match x.toDouble with
    | .ok double => .ok [(metricName path, double)]
    | .error raised => .error raised
  | .other => .ok []

def visitEntries (path : List String) : List (String × MetricsSnapshot) → Except Raised (List (String × List Sample))
  | [] => .ok []
  | (key, nested) :: rest =>
    match visit (path ++ [key]) nested, visitEntries path rest with
    | .ok samples, .ok visited => .ok ((key, samples) :: visited)
    | .error raised, _ => .error raised
    | .ok _, .error raised => .error raised

end

/-- The lines of a sample. -/
def sampleLines (sample : Sample) : List (List Char) :=
  ["# TYPE ".toList ++ sample.1 ++ " gauge".toList, sample.1 ++ ' ' :: Decimal.generalText sample.2]

def exposition (samples : List Sample) : List Char :=
  ['\n'].intercalate ("# Dependency-free Prometheus exposition for the local inference gateway.".toList ::
    samples.flatMap sampleLines) ++ ['\n']

def prometheusText (snapshot : MetricsSnapshot) : Except Raised String :=
  match visit [] snapshot with
  | .ok samples => .ok (String.ofList (exposition samples))
  | .error raised => .error raised

mutual

/-- The numeric leaves with their paths. -/
def leavesAt (path : List String) : MetricsSnapshot → List (List String × MetricNumber)
  | .mapping entries => entryLeaves path entries
  | .number x => [(path, x)]
  | .other => []

def entryLeaves (path : List String) : List (String × MetricsSnapshot) → List (List String × MetricNumber)
  | [] => []
  | (key, nested) :: rest => leavesAt (path ++ [key]) nested ++ entryLeaves path rest

end

def leaves (snapshot : MetricsSnapshot) : List (List String × MetricNumber) := leavesAt [] snapshot

end MetricsSnapshot

/-- What a line of an exposition says: comments and empty lines say nothing,
others give a name and the text of a number. -/
def readSample (line : List Char) : Option (List Char × List Char) :=
  if line.head? = some '#' then none
  else
    match line.splitOn ' ' with
    | [name, number] => some (name, number)
    | _ => none

/-- The samples that a reader of an exposition finds. -/
def readSamples (text : String) : List (List Char × List Char) := (text.toList.splitOn '\n').filterMap readSample

namespace MetricsSnapshot

/-- The samples belong to the numeric leaves, one to each; leaves with different paths have
different names, and the number of an integer leaf is that integer. -/
def Exposes (snapshot : MetricsSnapshot) (samples : List (List Char × List Char)) : Prop :=
  ∃ matched : List ((List Char × List Char) × List String × MetricNumber),
    matched.map Prod.fst = samples ∧ (matched.map Prod.snd).Perm snapshot.leaves ∧
    (∀ m ∈ matched, m.1.1 = metricName m.2.1 ∧ ∀ n, m.2.2 = .int n → Decimal.read m.1.2 = some (n : Rat)) ∧
    matched.Pairwise fun m m' => m.2.1 ≠ m'.2.1 → m.1.1 ≠ m'.1.1

end MetricsSnapshot

/-- A key without case: anything but a letter or a digit is an underscore, and none stands at its ends. -/
def spelledKey (key : String) : List Char :=
  ((key.toList.map fun c => if c.isAlphanum then c.toLower else '_').dropWhile (· = '_')).rdropWhile (· = '_')

/-- The keys of a path as they are spelled, with an underscore between those that are not empty. -/
def spelling : List String → List Char
  | [] => []
  | key :: rest =>
    if spelledKey key = [] then spelling rest
    else if spelling rest = [] then spelledKey key
    else spelledKey key ++ '_' :: spelling rest

/-- No two leaves are spelled alike, and each integer has at most six digits before its
zeros and a nearest double. -/
structure MetricsSnapshot.Plain (snapshot : MetricsSnapshot) : Prop where
  spelled : ∀ a ∈ snapshot.leaves, ∀ b ∈ snapshot.leaves, a.1 ≠ b.1 → spelling a.1 ≠ spelling b.1
  short : ∀ path n, (path, .int n) ∈ snapshot.leaves → Decimal.Fits 6 n.natAbs ∧ n.natAbs + 2 ^ 970 < 2 ^ 1024

/-- What holds of the first characters and of all that are no capitals holds of all. -/
theorem toLower_cases {P : Char → Char → Prop} (ascii : ∀ n < 128, P (Char.ofNat n) (Char.ofNat n).toLower)
    (same : ∀ c : Char, 128 ≤ c.toNat → P c c) (c : Char) : P c c.toLower := by
  rcases Nat.lt_or_ge c.toNat 128 with small | large
  · have at_ := ascii c.toNat small
    rwa [Char.ofNat_toNat] at at_
  · have kept : c.toLower = c := by
      unfold Char.toLower
      rw [dif_neg]
      rintro ⟨-, below⟩
      have bound : c.toNat ≤ 90 := below
      omega
    rw [kept]
    exact same c large

theorem toLower_eq_underscore (c : Char) : c.toLower = '_' ↔ c = '_' :=
  toLower_cases (P := fun c lower => lower = '_' ↔ c = '_') (by decide) (fun _ _ => Iff.rfl) c

theorem toLower_cleaned (part : String) : (cleaned part).map Char.toLower = spelledKey part := by
  have each : ∀ c : Char, (if c.isAlphanum ∨ c = '_' then c else '_').toLower = if c.isAlphanum then c.toLower else '_' := by
    intro c
    by_cases word : c.isAlphanum = true
    · rw [if_pos (Or.inl word), if_pos word]
    · rw [if_neg word]
      split
      · rename_i either
        rw [either.resolve_left word]
        rfl
      · rfl
  have fixed : ((fun c : Char => decide (c = '_')) ∘ Char.toLower) = fun c => decide (c = '_') := by
    funext c
    exact decide_eq_decide.mpr (toLower_eq_underscore c)
  unfold cleaned spelledKey List.rdropWhile
  rw [List.map_reverse, ← fixed, ← List.dropWhile_map, List.map_reverse, ← List.dropWhile_map, List.map_map, fixed]
  congr 4
  exact List.map_congr_left fun c _ => each c

/-- A name is a path as it is spelled. -/
theorem metricName_eq (path : List String) : metricName path = "llm_scheduler_".toList ++ spelling path := by
  have joined : ['_'].intercalate (((path.map cleaned).filter (· ≠ [])).map fun part => part.map Char.toLower) = spelling path ∧
      (((path.map cleaned).filter (· ≠ [])) = [] ↔ spelling path = []) := by
    induction path with
    | nil => exact ⟨rfl, by simp [spelling]⟩
    | cons key rest ih =>
      have word := toLower_cleaned key
      have same : spelledKey key = [] ↔ cleaned key = [] := by rw [← word, List.map_eq_nil_iff]
      unfold spelling
      rw [List.map_cons]
      by_cases empty : cleaned key = []
      · rw [if_pos (same.mpr empty), List.filter_cons_of_neg (by simp [empty])]
        exact ih
      · rw [if_neg (mt same.mp empty), List.filter_cons_of_pos (by simp [empty]), List.map_cons, word]
        have some_word : spelledKey key ≠ [] := mt same.mp empty
        split
        · rename_i last
          rw [ih.2.mpr last]
          exact ⟨List.intercalate_singleton, by simp [some_word]⟩
        · rename_i more
          rw [List.intercalate_cons_of_ne_nil (by simpa using mt ih.2.mp more), ih.1]
          exact ⟨by simp, by simp [some_word]⟩
  unfold metricName
  rw [joined.1]

/-- No blank, line end or comment sign is part of a name. -/
theorem spelling_chars (path : List String) : ∀ c ∈ spelling path, c ≠ ' ' ∧ c ≠ '\n' := by
  have keyChars : ∀ key, ∀ c ∈ spelledKey key, c ≠ ' ' ∧ c ≠ '\n' := by
    intro key c inside
    have folded := (List.dropWhile_suffix _).subset (List.mem_reverse.mp inside)
    obtain ⟨original, -, rfl⟩ := List.mem_map.mp ((List.dropWhile_suffix _).subset (List.mem_reverse.mp folded))
    split
    · rename_i word
      exact toLower_cases (P := fun c lower => c.isAlphanum = true → lower ≠ ' ' ∧ lower ≠ '\n') (by decide)
        (fun c large _ => ⟨fun blank => absurd (blank ▸ large) (by decide), fun ending => absurd (ending ▸ large) (by decide)⟩)
        original word
    · decide
  induction path with
  | nil => simp [spelling]
  | cons key rest ih =>
    intro c inside
    unfold spelling at inside
    split at inside
    · exact ih c inside
    split at inside
    · exact keyChars key c inside
    · rcases List.mem_append.mp inside with word | rest
      · exact keyChars key c word
      · rcases List.mem_cons.mp rest with rfl | later
        · decide
        · exact ih c later

theorem metricName_chars (path : List String) : ∀ c ∈ metricName path, c ≠ ' ' ∧ c ≠ '\n' := by
  intro c inside
  rw [metricName_eq] at inside
  rcases List.mem_append.mp inside with start | rest
  · exact (show ∀ c ∈ "llm_scheduler_".toList, c ≠ ' ' ∧ c ≠ '\n' by simp) c start
  · exact spelling_chars path c rest

theorem generalText_chars (double : Binary64.Double) : ∀ c ∈ Decimal.generalText double, c ≠ ' ' ∧ c ≠ '\n' := by
  intro c inside
  rcases Decimal.printed_generalText double c inside with digit | sign
  · refine ⟨?_, ?_⟩
    · rintro rfl
      cases digit
    · rintro rfl
      cases digit
  · exact (show ∀ c ∈ ['.', 'e', '+', '-', 'i', 'n', 'f', 'a'], c ≠ ' ' ∧ c ≠ '\n' by simp) c sign

namespace MetricsSnapshot

/-- A reader of an exposition finds its samples. -/
theorem readSamples_exposition {samples : List Sample} (named : ∀ sample ∈ samples, ∃ path, sample.1 = metricName path) :
    readSamples (String.ofList (exposition samples)) = samples.map fun sample => (sample.1, Decimal.generalText sample.2) := by
  have lines : ∀ line ∈ "# Dependency-free Prometheus exposition for the local inference gateway.".toList ::
      samples.flatMap sampleLines, '\n' ∉ line := by
    intro line inside
    rcases List.mem_cons.mp inside with rfl | inside
    · decide
    obtain ⟨sample, member, inside⟩ := List.mem_flatMap.mp inside
    obtain ⟨path, name⟩ := named sample member
    have plain := metricName_chars path
    rcases List.mem_cons.mp inside with rfl | inside
    · rw [name]
      intro ending
      rcases List.mem_append.mp ending with start | last
      · rcases List.mem_append.mp start with first | middle
        · exact absurd first (by decide)
        · exact (plain _ middle).2 rfl
      · exact absurd last (by decide)
    · rw [List.mem_singleton.mp inside, name]
      intro ending
      rcases List.mem_append.mp ending with start | rest
      · exact (plain _ start).2 rfl
      · rcases List.mem_cons.mp rest with blank | number
        · exact absurd blank (by decide)
        · exact (generalText_chars _ _ number).2 rfl
  have each : (samples.flatMap sampleLines).filterMap readSample =
      samples.map fun sample => (sample.1, Decimal.generalText sample.2) := by
    clear lines
    induction samples with
    | nil => rfl
    | cons sample rest ih =>
      obtain ⟨path, name⟩ := named sample List.mem_cons_self
      have comment : readSample ("# TYPE ".toList ++ sample.1 ++ " gauge".toList) = none := rfl
      have pair : (sample.1 ++ ' ' :: Decimal.generalText sample.2).splitOn ' ' = [sample.1, Decimal.generalText sample.2] := by
        rw [List.splitOn_append_cons_self, List.splitOn_eq_singleton, List.splitOn_eq_singleton]
        · rfl
        · exact fun blank => (generalText_chars _ _ blank).1 rfl
        · rw [name]
          exact fun blank => (metricName_chars path _ blank).1 rfl
      have starts : (sample.1 ++ ' ' :: Decimal.generalText sample.2).head? = some 'l' := by
        rw [name]
        rfl
      have read : readSample (sample.1 ++ ' ' :: Decimal.generalText sample.2) =
          some (sample.1, Decimal.generalText sample.2) := by
        unfold readSample
        rw [starts, pair]
        rfl
      rw [List.flatMap_cons, List.filterMap_append, ih fun other member => named other (List.mem_cons_of_mem _ member)]
      simp only [sampleLines, List.filterMap_cons, List.filterMap_nil, comment, read, List.map_cons, List.cons_append,
        List.nil_append]
  unfold readSamples exposition
  rw [String.toList_ofList, List.splitOn_append_cons_self, List.splitOn_intercalate _ lines (by simp), List.filterMap_append,
    List.filterMap_cons_none (by decide), each]
  simp [readSample]

/-- A sample renders a leaf. -/
def Renders (sample : Sample) (leaf : List String × MetricNumber) : Prop :=
  sample.1 = metricName leaf.1 ∧ leaf.2.toDouble = .ok sample.2

mutual

/-- One sample is collected for each leaf, in whatever order the keys are visited. -/
theorem visit_renders (path : List String) (snapshot : MetricsSnapshot) {samples : List Sample}
    (run : visit path snapshot = .ok samples) :
    ∃ order, List.Forall₂ Renders samples order ∧ order.Perm (leavesAt path snapshot) := by
  match snapshot with
  | .mapping entries =>
    unfold visit at run
    split at run
    · rename_i visited inner
      cases run
      obtain ⟨order, renders, perm⟩ := visitEntries_renders path entries inner
      have sorted := (List.perm_insertionSort (fun a b : String × List Sample => a.1 ≤ b.1) visited).flatMap_right Prod.snd
      obtain ⟨order', renders', perm'⟩ := List.perm_comp_forall₂ sorted renders
      exact ⟨order', renders', perm'.trans perm⟩
    · cases run
  | .number x =>
    unfold visit at run
    split at run
    · rename_i double converted
      cases run
      exact ⟨[(path, x)], .cons ⟨rfl, converted⟩ .nil, .refl _⟩
    · cases run
  | .other =>
    unfold visit at run
    cases run
    exact ⟨[], .nil, .refl _⟩

theorem visitEntries_renders (path : List String) (entries : List (String × MetricsSnapshot))
    {visited : List (String × List Sample)} (run : visitEntries path entries = .ok visited) :
    ∃ order, List.Forall₂ Renders (visited.flatMap Prod.snd) order ∧ order.Perm (entryLeaves path entries) := by
  match entries with
  | [] =>
    unfold visitEntries at run
    cases run
    exact ⟨[], .nil, .refl _⟩
  | (key, nested) :: rest =>
    unfold visitEntries at run
    split at run
    · rename_i samples later first others
      cases run
      obtain ⟨order, renders, perm⟩ := visit_renders (path ++ [key]) nested first
      obtain ⟨order', renders', perm'⟩ := visitEntries_renders path rest others
      exact ⟨order ++ order', List.rel_append renders renders', perm.append perm'⟩
    · cases run
    · cases run

end

mutual

/-- A snapshot is rendered when all its numbers have doubles. -/
theorem visit_defined (path : List String) (snapshot : MetricsSnapshot)
    (doubles : ∀ leaf ∈ leavesAt path snapshot, ∃ double, leaf.2.toDouble = .ok double) :
    ∃ samples, visit path snapshot = .ok samples := by
  match snapshot with
  | .mapping entries =>
    obtain ⟨visited, run⟩ := visitEntries_defined path entries doubles
    unfold visit
    rw [run]
    exact ⟨_, rfl⟩
  | .number x =>
    obtain ⟨double, converted⟩ := doubles (path, x) (List.mem_singleton_self _)
    unfold visit
    rw [converted]
    exact ⟨_, rfl⟩
  | .other => exact ⟨[], rfl⟩

theorem visitEntries_defined (path : List String) (entries : List (String × MetricsSnapshot))
    (doubles : ∀ leaf ∈ entryLeaves path entries, ∃ double, leaf.2.toDouble = .ok double) :
    ∃ visited, visitEntries path entries = .ok visited := by
  match entries with
  | [] => exact ⟨[], rfl⟩
  | (key, nested) :: rest =>
    obtain ⟨samples, first⟩ := visit_defined (path ++ [key]) nested fun leaf inside =>
      doubles leaf (List.mem_append_left _ inside)
    obtain ⟨visited, others⟩ := visitEntries_defined path rest fun leaf inside =>
      doubles leaf (List.mem_append_right _ inside)
    unfold visitEntries
    rw [first, others]
    exact ⟨_, rfl⟩

end

/-- What is rendered is read as one sample for each numeric leaf. -/
theorem prometheusText_matched {snapshot : MetricsSnapshot} {text : String} (run : snapshot.prometheusText = .ok text) :
    ∃ matched : List (Sample × List String × MetricNumber),
      readSamples text = matched.map (fun m => (m.1.1, Decimal.generalText m.1.2)) ∧
      (matched.map Prod.snd).Perm snapshot.leaves ∧ ∀ m ∈ matched, Renders m.1 m.2 := by
  unfold prometheusText at run
  split at run
  · rename_i samples visited
    cases run
    obtain ⟨order, renders, perm⟩ := visit_renders [] snapshot visited
    have length := renders.length_eq
    have each : ∀ m ∈ samples.zip order, Renders m.1 m.2 := fun m inside => List.forall₂_zip renders inside
    refine ⟨samples.zip order, ?_, ?_, each⟩
    · rw [readSamples_exposition]
      · conv_lhs => rw [← List.map_fst_zip length.le, List.map_map]
        rfl
      · intro sample member
        rw [← List.map_fst_zip length.le] at member
        obtain ⟨m, inside, rfl⟩ := List.mem_map.mp member
        exact ⟨m.2.1, (each m inside).1⟩
    · rw [List.map_snd_zip length.ge]
      exact perm
  · cases run

theorem toDouble_int {n : Int} : (∃ double, (MetricNumber.int n).toDouble = .ok double) ↔ n.natAbs + 2 ^ 970 < 2 ^ 1024 := by
  rw [← Binary64.quotient_one_isSome]
  simp only [MetricNumber.toDouble, Binary64.ofInt]
  cases Binary64.quotient n.natAbs 1 <;> simp

variable {snapshot : MetricsSnapshot} {text : String}

theorem Plain.defined (plain : snapshot.Plain) : ∃ text, snapshot.prometheusText = .ok text := by
  obtain ⟨samples, run⟩ := visit_defined [] snapshot fun leaf inside => by
    obtain ⟨path, number⟩ := leaf
    cases number with
    | bool b => exact ⟨_, rfl⟩
    | int n => exact toDouble_int.mpr (plain.short path n inside).2
    | float x => exact ⟨x, rfl⟩
  unfold prometheusText
  rw [run]
  exact ⟨_, rfl⟩

theorem Plain.exposes (plain : snapshot.Plain) (run : snapshot.prometheusText = .ok text) :
    snapshot.Exposes (readSamples text) := by
  obtain ⟨matched, read, perm, renders⟩ := prometheusText_matched run
  have leaf : ∀ m ∈ matched, m.2 ∈ snapshot.leaves := fun m inside => perm.mem_iff.mp (List.mem_map_of_mem inside)
  refine ⟨matched.map fun m => ((m.1.1, Decimal.generalText m.1.2), m.2), ?_, ?_, ?_, ?_⟩
  · rw [read, List.map_map]
    rfl
  · rw [List.map_map]
    exact perm
  · intro m inside
    obtain ⟨origin, member, rfl⟩ := List.mem_map.mp inside
    obtain ⟨name, converted⟩ := renders origin member
    refine ⟨name, fun n integer => ?_⟩
    have digits := (plain.short origin.2.1 n (integer ▸ leaf origin member)).1
    dsimp only at integer
    rw [integer] at converted
    unfold MetricNumber.toDouble at converted
    dsimp only at converted
    split at converted
    · rename_i double nearest
      cases converted
      exact (Decimal.read_generalText_iff nearest).mpr digits
    · cases converted
  · rw [List.pairwise_map]
    refine List.pairwise_of_forall_mem_list fun m inside m' inside' apart => ?_
    dsimp only at apart ⊢
    rw [(renders m inside).1, (renders m' inside').1, metricName_eq, metricName_eq]
    exact fun same => plain.spelled m.2 (leaf m inside) m'.2 (leaf m' inside') apart (List.append_cancel_left same)

theorem plain_of_exposes (run : snapshot.prometheusText = .ok text) (exposes : snapshot.Exposes (readSamples text)) :
    snapshot.Plain where
  spelled := by
    obtain ⟨matched, -, perm, leaves, apart⟩ := exposes
    intro a insideA b insideB differ
    obtain ⟨m, memberM, rfl⟩ := List.mem_map.mp (perm.mem_iff.mpr insideA)
    obtain ⟨m', memberM', rfl⟩ := List.mem_map.mp (perm.mem_iff.mpr insideB)
    have symmetric : Std.Symm fun m m' : (List Char × List Char) × List String × MetricNumber => m.2.1 ≠ m'.2.1 → m.1.1 ≠ m'.1.1 :=
      ⟨fun _ _ kept paths => (kept paths.symm).symm⟩
    have names := apart.forall memberM memberM' (fun same => differ (by rw [same])) differ
    rw [(leaves m memberM).1, (leaves m' memberM').1, metricName_eq, metricName_eq] at names
    exact fun same => names (by rw [same])
  short := by
    intro path n inside
    obtain ⟨rendered, read, order, renders⟩ := prometheusText_matched run
    obtain ⟨matched, samples, perm, leaves, -⟩ := exposes
    constructor
    · obtain ⟨m, member, leaf⟩ := List.mem_map.mp (perm.mem_iff.mpr inside)
      have shown := (leaves m member).2 n (by rw [leaf])
      have sample : m.1 ∈ readSamples text := samples ▸ List.mem_map_of_mem member
      rw [read] at sample
      obtain ⟨origin, -, same⟩ := List.mem_map.mp sample
      rw [← same] at shown
      exact Decimal.fits_of_generalText shown
    · obtain ⟨m, member, leaf⟩ := List.mem_map.mp (order.mem_iff.mpr inside)
      have converted := (renders m member).2
      rw [leaf] at converted
      exact toDouble_int.mp ⟨_, converted⟩

/-- The text says what the snapshot says precisely when no two leaves are spelled alike
and every integer has at most six digits before its zeros and a nearest double. -/
theorem prometheusText_exposes_iff (snapshot : MetricsSnapshot) :
    (∃ text, snapshot.prometheusText = .ok text ∧ snapshot.Exposes (readSamples text)) ↔ snapshot.Plain := by
  constructor
  · rintro ⟨text, run, exposes⟩
    exact plain_of_exposes run exposes
  · intro plain
    obtain ⟨text, run⟩ := plain.defined
    exact ⟨text, run, plain.exposes run⟩

/-- A counter past a million, and two keys that are cleaned alike. -/
def largeCounter : MetricsSnapshot := .mapping [("total_requests", .number (.int 1234567))]

def similarKeys : MetricsSnapshot :=
  .mapping [("rejections_by_reason", .mapping [("queue-full", .number (.int 1)), ("queue_full", .number (.int 2))])]

/-- The counter is read as 1234570, and both reasons have one name. -/
theorem digits_and_names_lost :
    ¬ (∃ text, largeCounter.prometheusText = .ok text ∧ largeCounter.Exposes (readSamples text)) ∧
    ¬ (∃ text, similarKeys.prometheusText = .ok text ∧ similarKeys.Exposes (readSamples text)) ∧
    Decimal.read "1.23457e+06".toList = some 1234570 := by
  refine ⟨?_, ?_, by decide +kernel⟩
  · rintro ⟨text, run, exposes⟩
    obtain ⟨digits, zeros, few, number⟩ := ((plain_of_exposes run exposes).short ["total_requests"] 1234567
      (List.mem_singleton_self _)).1
    cases zeros with
    | zero => omega
    | succ zeros =>
      rw [Nat.pow_succ, ← Nat.mul_assoc] at number
      omega
  · rintro ⟨text, run, exposes⟩
    exact (plain_of_exposes run exposes).spelled (["rejections_by_reason", "queue-full"], .int 1) (by simp [leaves, leavesAt, entryLeaves, similarKeys])
      (["rejections_by_reason", "queue_full"], .int 2) (by simp [leaves, leavesAt, entryLeaves, similarKeys]) (by decide)
      (by decide +kernel)

end MetricsSnapshot

end ServingPlatform
