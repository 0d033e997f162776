import ServingPlatform.Library.Dict

/-- A tree over symbols in which any node may carry a value. -/
inductive PrefixTree (τ ε : Type)
  | node (entry : Option ε) (children : List (τ × PrefixTree τ ε))

namespace PrefixTree

variable {τ ε : Type}

def entry : PrefixTree τ ε → Option ε
  | .node entry _ => entry

def children : PrefixTree τ ε → List (τ × PrefixTree τ ε)
  | .node _ children => children

def empty : PrefixTree τ ε := .node none []

def isBare (t : PrefixTree τ ε) : Bool := t.entry.isNone && t.children.isEmpty

section Operations

variable [DecidableEq τ]

def child? (t : PrefixTree τ ε) (s : τ) : Option (PrefixTree τ ε) := Dict.lookupEntry s t.children

def nodeAt : PrefixTree τ ε → List τ → Option (PrefixTree τ ε)
  | t, [] => some t
  | t, s :: rest => match t.child? s with
    | none => none
    | some child => child.nodeAt rest

def entryAt (t : PrefixTree τ ε) (path : List τ) : Option ε := (t.nodeAt path).bind entry

/-- The value met last on the way down a path, below the root. -/
def deepest : PrefixTree τ ε → List τ → Option ε → Option ε
  | _, [], best => best
  | t, s :: rest, best => match t.child? s with
    | none => best
    | some child => child.deepest rest (child.entry.or best)

/-- Creates the missing nodes of a path and stores a value at its end. -/
def insert : PrefixTree τ ε → List τ → ε → PrefixTree τ ε
  | .node _ children, [], v => .node (some v) children
  | .node entry children, s :: rest, v =>
    .node entry (Dict.insertEntry s (((Dict.lookupEntry s children).getD empty).insert rest v) children)

/-- Clears the value at the end of a path, then removes bare nodes upwards.
A path that does not exist leaves the tree alone. -/
def remove : PrefixTree τ ε → List τ → PrefixTree τ ε
  | .node _ children, [] => .node none children
  | .node entry children, s :: rest => match Dict.lookupEntry s children with
    | none => .node entry children
    | some child =>
      if (child.remove rest).isBare then .node entry (Dict.eraseEntry s children)
      else .node entry (Dict.insertEntry s (child.remove rest) children)

end Operations

/-- A value is stored at the node or below it. -/
inductive Bears : PrefixTree τ ε → Prop
  | here {v children} : Bears (.node (some v) children)
  | deeper {entry children s child} : (s, child) ∈ children → Bears child → Bears (.node entry children)

/-- Children have distinct symbols and every proper subtree bears a value. -/
inductive Tidy : PrefixTree τ ε → Prop
  | node {entry children} : (children.map Prod.fst).Nodup →
      (∀ s child, (s, child) ∈ children → Bears child) →
      (∀ s child, (s, child) ∈ children → Tidy child) → Tidy (.node entry children)

theorem Tidy.distinct {entry : Option ε} {children : List (τ × PrefixTree τ ε)}
    (tidy : Tidy (.node entry children)) : (children.map Prod.fst).Nodup := by
  cases tidy with
  | node distinct _ _ => exact distinct

theorem Tidy.child {entry : Option ε} {children : List (τ × PrefixTree τ ε)}
    (tidy : Tidy (.node entry children)) {s : τ} {child : PrefixTree τ ε} (member : (s, child) ∈ children) :
    Bears child ∧ Tidy child := by
  cases tidy with
  | node _ bears tidy => exact ⟨bears s child member, tidy s child member⟩

theorem Tidy.ofChildren {entry : Option ε} {children : List (τ × PrefixTree τ ε)}
    (distinct : (children.map Prod.fst).Nodup)
    (below : ∀ s child, (s, child) ∈ children → Bears child ∧ Tidy child) : Tidy (.node entry children) :=
  .node distinct (fun s child member => (below s child member).1) fun s child member => (below s child member).2

theorem tidy_empty : Tidy (empty : PrefixTree τ ε) :=
  .ofChildren .nil fun _ _ member => absurd member List.not_mem_nil

/-- In a tidy tree a node that is not bare bears a value. -/
theorem Tidy.bears {t : PrefixTree τ ε} (tidy : Tidy t) (full : t.isBare = false) : Bears t := by
  obtain ⟨entry, children⟩ := t
  cases entry with
  | some v => exact .here
  | none =>
    cases children with
    | nil => simp [isBare, PrefixTree.entry, PrefixTree.children] at full
    | cons first rest =>
      obtain ⟨s, child⟩ := first
      exact .deeper (List.mem_cons_self ..) (tidy.child (List.mem_cons_self ..)).1

variable [DecidableEq τ]

theorem mem_insertEntry {ν : Type} {l : List (τ × ν)} {k s : τ} {v w : ν}
    (member : (s, w) ∈ Dict.insertEntry k v l) : s = k ∧ w = v ∨ (s, w) ∈ l := by
  induction l with
  | nil =>
    simp only [Dict.insertEntry, List.mem_singleton, Prod.mk.injEq] at member
    exact Or.inl member
  | cons e rest ih =>
    unfold Dict.insertEntry at member
    split at member
    · rcases List.mem_cons.mp member with here | later
      · exact Or.inl (Prod.mk.inj here)
      · exact Or.inr (List.mem_cons_of_mem _ later)
    · rcases List.mem_cons.mp member with here | later
      · exact Or.inr (here ▸ List.mem_cons_self ..)
      · exact (ih later).imp_right (List.mem_cons_of_mem _)

theorem mem_eraseEntry {ν : Type} {l : List (τ × ν)} {k s : τ} {w : ν}
    (member : (s, w) ∈ Dict.eraseEntry k l) : (s, w) ∈ l := by
  induction l with
  | nil => exact member
  | cons e rest ih =>
    unfold Dict.eraseEntry at member
    split at member
    · exact List.mem_cons_of_mem _ member
    · rcases List.mem_cons.mp member with here | later
      · exact here ▸ List.mem_cons_self ..
      · exact List.mem_cons_of_mem _ (ih later)

theorem nodup_insertEntry {ν : Type} {l : List (τ × ν)} (k : τ) (v : ν) (distinct : (l.map Prod.fst).Nodup) :
    ((Dict.insertEntry k v l).map Prod.fst).Nodup :=
  (Dict.insert ⟨l, distinct⟩ k v).nodup

theorem mem_of_lookupEntry {ν : Type} {l : List (τ × ν)} {k : τ} {v : ν}
    (found : Dict.lookupEntry k l = some v) : (k, v) ∈ l :=
  (Dict.perm_eraseEntry found).mem_iff.mpr (List.mem_cons_self ..)

theorem bears_insert (t : PrefixTree τ ε) (path : List τ) (v : ε) : Bears (t.insert path v) := by
  induction path generalizing t with
  | nil =>
    obtain ⟨entry, children⟩ := t
    exact .here
  | cons s rest ih =>
    obtain ⟨entry, children⟩ := t
    exact .deeper (mem_of_lookupEntry (by rw [Dict.lookupEntry_insertEntry, if_pos rfl])) (ih _)

theorem Tidy.insert {t : PrefixTree τ ε} (tidy : Tidy t) (path : List τ) (v : ε) : Tidy (t.insert path v) := by
  induction path generalizing t with
  | nil =>
    obtain ⟨entry, children⟩ := t
    exact .ofChildren tidy.distinct fun s child member => tidy.child member
  | cons s rest ih =>
    obtain ⟨entry, children⟩ := t
    have below : Tidy ((Dict.lookupEntry s children).getD PrefixTree.empty) := by
      cases found : Dict.lookupEntry s children with
      | none => exact tidy_empty
      | some child => exact (tidy.child (mem_of_lookupEntry found)).2
    refine .ofChildren (nodup_insertEntry _ _ tidy.distinct) fun s' child member => ?_
    rcases mem_insertEntry member with ⟨-, rfl⟩ | old
    · exact ⟨bears_insert _ _ _, ih below⟩
    · exact tidy.child old

theorem Tidy.remove {t : PrefixTree τ ε} (tidy : Tidy t) (path : List τ) : Tidy (t.remove path) := by
  induction path generalizing t with
  | nil =>
    obtain ⟨entry, children⟩ := t
    exact .ofChildren tidy.distinct fun s child member => tidy.child member
  | cons s rest ih =>
    obtain ⟨entry, children⟩ := t
    unfold PrefixTree.remove
    split
    · exact tidy
    · rename_i child found
      have below := ih (tidy.child (mem_of_lookupEntry found)).2
      split
      · exact .ofChildren (((Dict.eraseEntry_sublist s children).map Prod.fst).nodup tidy.distinct)
          fun s' c member => tidy.child (mem_eraseEntry member)
      · rename_i full
        refine .ofChildren (nodup_insertEntry _ _ tidy.distinct) fun s' c member => ?_
        rcases mem_insertEntry member with ⟨-, rfl⟩ | old
        · exact ⟨below.bears (Bool.eq_false_iff.mpr full), below⟩
        · exact tidy.child old

@[simp] theorem nodeAt_nil (t : PrefixTree τ ε) : t.nodeAt [] = some t := by
  unfold nodeAt
  rfl

theorem nodeAt_cons (t : PrefixTree τ ε) (s : τ) (rest : List τ) :
    t.nodeAt (s :: rest) = (t.child? s).bind (·.nodeAt rest) := by
  conv_lhs => unfold nodeAt
  cases t.child? s <;> rfl

@[simp] theorem entryAt_nil (t : PrefixTree τ ε) : t.entryAt [] = t.entry := by
  simp [entryAt]

theorem entryAt_cons (t : PrefixTree τ ε) (s : τ) (rest : List τ) :
    t.entryAt (s :: rest) = (t.child? s).bind (·.entryAt rest) := by
  rw [entryAt, nodeAt_cons, Option.bind_assoc]
  rfl

@[simp] theorem entryAt_empty (path : List τ) : (empty : PrefixTree τ ε).entryAt path = none := by
  cases path with
  | nil => rfl
  | cons s rest => rfl

theorem entryAt_insert (t : PrefixTree τ ε) (path query : List τ) (v : ε) :
    (t.insert path v).entryAt query = if query = path then some v else t.entryAt query := by
  induction path generalizing t query with
  | nil =>
    obtain ⟨entry, children⟩ := t
    cases query with
    | nil => rfl
    | cons s rest => rw [entryAt_cons, entryAt_cons, if_neg (List.cons_ne_nil _ _)]; rfl
  | cons s rest ih =>
    obtain ⟨entry, children⟩ := t
    cases query with
    | nil => rfl
    | cons s' rest' =>
      rw [entryAt_cons, entryAt_cons, PrefixTree.insert, child?, child?, PrefixTree.children,
        PrefixTree.children, Dict.lookupEntry_insertEntry]
      by_cases same : s' = s
      · subst same
        rw [if_pos rfl, Option.bind_some, ih]
        by_cases tail : rest' = rest
        · simp [tail]
        · simp only [tail, if_false, List.cons.injEq, and_false]
          cases Dict.lookupEntry s' children with
          | none => simp
          | some child => rfl
      · simp [same]

theorem entryAt_remove {t : PrefixTree τ ε} (tidy : Tidy t) (path query : List τ) :
    (t.remove path).entryAt query = if query = path then none else t.entryAt query := by
  induction path generalizing t query with
  | nil =>
    obtain ⟨entry, children⟩ := t
    cases query with
    | nil => rfl
    | cons s rest => rw [entryAt_cons, entryAt_cons, if_neg (List.cons_ne_nil _ _)]; rfl
  | cons s rest ih =>
    obtain ⟨entry, children⟩ := t
    unfold PrefixTree.remove
    split
    · rename_i missing
      cases query with
      | nil => rfl
      | cons s' rest' =>
        by_cases same : s' = s
        · subst same
          simp [entryAt_cons, child?, PrefixTree.children, missing]
        · simp [same]
    · rename_i child found
      have inner := ih (tidy.child (mem_of_lookupEntry found)).2
      cases query with
      | nil => split <;> rfl
      | cons s' rest' =>
        by_cases same : s' = s
        · subst same
          have here := inner rest'
          have target : (PrefixTree.node entry children).entryAt (s' :: rest') = child.entryAt rest' := by
            rw [entryAt_cons, child?, PrefixTree.children, found, Option.bind_some]
          simp only [List.cons.injEq, true_and, target, ← here]
          split
          · rename_i bare
            rw [entryAt_cons, child?, PrefixTree.children, Dict.lookupEntry_eraseEntry tidy.distinct, if_pos rfl,
              Option.bind_none]
            generalize child.remove rest = pruned at *
            obtain ⟨e, c⟩ := pruned
            simp only [isBare, PrefixTree.entry, PrefixTree.children, Bool.and_eq_true,
              Option.isNone_iff_eq_none, List.isEmpty_iff] at bare
            rw [bare.1, bare.2]
            exact (entryAt_empty rest').symm
          · rw [entryAt_cons, child?, PrefixTree.children, Dict.lookupEntry_insertEntry, if_pos rfl,
              Option.bind_some]
        · have differ : ¬ s' :: rest' = s :: rest := fun h => same (List.cons.inj h).1
          rw [if_neg differ, entryAt_cons, entryAt_cons]
          split <;>
            simp [child?, PrefixTree.children, Dict.lookupEntry_eraseEntry tidy.distinct,
              Dict.lookupEntry_insertEntry, same]

theorem Bears.entry_below {t : PrefixTree τ ε} (bears : Bears t) (tidy : Tidy t) :
    ∃ path v, t.entryAt path = some v := by
  induction bears with
  | @here v children => exact ⟨[], v, rfl⟩
  | @deeper entry children s child member _ ih =>
    obtain ⟨path, v, atPath⟩ := ih (tidy.child member).2
    refine ⟨s :: path, v, ?_⟩
    rw [entryAt_cons, child?, PrefixTree.children, (Dict.lookupEntry_eq_some_iff tidy.distinct).mpr member,
      Option.bind_some, atPath]

theorem entryAt_append (t : PrefixTree τ ε) (path rest : List τ) :
    t.entryAt (path ++ rest) = (t.nodeAt path).bind (·.entryAt rest) := by
  induction path generalizing t with
  | nil => simp
  | cons s tail ih =>
    rw [List.cons_append, entryAt_cons, nodeAt_cons, Option.bind_assoc]
    simp only [ih]

/-- Every node below the root of a tidy tree has a value at or below it. -/
theorem Tidy.entry_below_nodeAt {t : PrefixTree τ ε} (tidy : Tidy t) {path : List τ} (below : path ≠ [])
    {n : PrefixTree τ ε} (atPath : t.nodeAt path = some n) : ∃ rest v, t.entryAt (path ++ rest) = some v := by
  have bears : Bears n ∧ Tidy n := by
    induction path generalizing t with
    | nil => exact absurd rfl below
    | cons s rest ih =>
      obtain ⟨entry, children⟩ := t
      rw [nodeAt_cons] at atPath
      obtain ⟨child, found, later⟩ := Option.bind_eq_some_iff.mp atPath
      have step := tidy.child (mem_of_lookupEntry found)
      cases rest with
      | nil =>
        rw [nodeAt_nil, Option.some.injEq] at later
        exact later ▸ step
      | cons s' rest' => exact ih step.2 (List.cons_ne_nil _ _) later
  obtain ⟨rest, v, atRest⟩ := bears.1.entry_below bears.2
  exact ⟨rest, v, by rw [entryAt_append, atPath, Option.bind_some, atRest]⟩

/-- The walk keeps its starting value or finds the value stored at the
longest nonempty prefix of the query. -/
theorem deepest_spec (t : PrefixTree τ ε) (query : List τ) (best : Option ε) :
    (t.deepest query best = best ∧ ∀ p, p ≠ [] → p <+: query → t.entryAt p = none) ∨
      ∃ p v, t.deepest query best = some v ∧ p ≠ [] ∧ p <+: query ∧ t.entryAt p = some v ∧
        ∀ p', p' <+: query → t.entryAt p' ≠ none → p'.length ≤ p.length := by
  induction query generalizing t best with
  | nil =>
    refine Or.inl ⟨rfl, fun p nonempty isPrefix => ?_⟩
    exact absurd (List.prefix_nil.mp isPrefix) nonempty
  | cons s rest ih =>
    have unfoldWalk : t.deepest (s :: rest) best =
        match t.child? s with
        | none => best
        | some child => child.deepest rest (child.entry.or best) := by
      conv_lhs => unfold deepest
    rw [unfoldWalk]
    cases step : t.child? s with
    | none =>
      refine Or.inl ⟨rfl, fun p nonempty isPrefix => ?_⟩
      obtain ⟨head, tail, rfl⟩ := List.exists_cons_of_ne_nil nonempty
      obtain ⟨rfl, -⟩ := List.cons_prefix_cons.mp isPrefix
      rw [entryAt_cons, step, Option.bind_none]
    | some child =>
      have descend : ∀ tail, t.entryAt (s :: tail) = child.entryAt tail := fun tail => by
        rw [entryAt_cons, step, Option.bind_some]
      rcases ih child (child.entry.or best) with ⟨walk, absent⟩ | ⟨p, v, walk, nonempty, isPrefix, atP, longest⟩
      · cases here : child.entry with
        | none =>
          refine Or.inl ⟨by simpa [here] using walk, fun p nonempty isPrefix => ?_⟩
          obtain ⟨head, tail, rfl⟩ := List.exists_cons_of_ne_nil nonempty
          obtain ⟨rfl, tailPrefix⟩ := List.cons_prefix_cons.mp isPrefix
          rw [descend]
          by_cases stop : tail = []
          · rw [stop, entryAt_nil, here]
          · exact absent tail stop tailPrefix
        | some v =>
          refine Or.inr ⟨[s], v, by simpa [here] using walk, List.cons_ne_nil _ _,
            List.cons_prefix_cons.mpr ⟨rfl, List.nil_prefix⟩, by rw [descend, entryAt_nil, here], ?_⟩
          intro p' isPrefix held
          cases p' with
          | nil => simp
          | cons head tail =>
            obtain ⟨rfl, tailPrefix⟩ := List.cons_prefix_cons.mp isPrefix
            rw [descend] at held
            by_cases stop : tail = []
            · simp [stop]
            · exact absurd (absent tail stop tailPrefix) held
      · refine Or.inr ⟨s :: p, v, walk, List.cons_ne_nil _ _, List.cons_prefix_cons.mpr ⟨rfl, isPrefix⟩,
          by rw [descend, atP], ?_⟩
        intro p' prefix' held
        cases p' with
        | nil => simp
        | cons head tail =>
          obtain ⟨rfl, tailPrefix⟩ := List.cons_prefix_cons.mp prefix'
          rw [descend] at held
          simpa using longest tail tailPrefix held

end PrefixTree
