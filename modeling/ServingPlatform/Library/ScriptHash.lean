import Mathlib.Algebra.Order.Group.Abs
import Mathlib.Algebra.Order.Ring.Int
import Mathlib.Data.List.Nodup
import ServingPlatform.Library.Attempt
import ServingPlatform.Library.Dict

/-- The numbers of a script, which are doubles. Only integers are written here; one that is
too large for a double to hold is known up to order. -/
structure ScriptNumbers where
  /-- The number that an integer's text is read as. -/
  nearest : Int → Int
  /-- The number that is read back from the document it was written to. -/
  transcribed : Int → Int
  /-- The integer that a command reads where it is passed the number. -/
  argument : Int → Option Int
  nearest_mono : ∀ m n, m ≤ n → nearest m ≤ nearest n
  nearest_exact : ∀ n, |n| ≤ 2 ^ 53 → nearest n = n
  transcribed_exact : ∀ n, |n| < 10 ^ 14 → transcribed n = n
  argument_exact : ∀ n, |n| < 10 ^ 14 → argument n = some n

namespace ScriptNumbers

variable {limit n : Int}

/-- Rounding does not hide that a limit within the exact range is exceeded, and does not make it so. -/
theorem lt_nearest_iff (numbers : ScriptNumbers) (small : |limit| < 2 ^ 53) :
    limit < numbers.nearest n ↔ limit < n := by
  rw [abs_lt] at small
  constructor
  · intro above
    by_contra below
    have least := numbers.nearest_mono n limit (by omega)
    rw [numbers.nearest_exact limit (abs_le.mpr (by omega))] at least
    omega
  · intro above
    have least := numbers.nearest_mono (limit + 1) n (by omega)
    rw [numbers.nearest_exact (limit + 1) (abs_le.mpr (by omega))] at least
    omega

end ScriptNumbers

/-- A text in a hash: the decimals of an integer, a document, or one that is neither. -/
inductive HashText (ρ : Type)
  | decimal (n : Int)
  | document (d : ρ)
  | text (t : String)
  deriving DecidableEq, Repr

/-- The document that a text is. -/
def HashText.document? {ρ : Type} : HashText ρ → Option ρ
  | .document d => some d
  | _ => none

theorem HashText.document?_eq_some {ρ : Type} {text : HashText ρ} {d : ρ} :
    text.document? = some d ↔ text = .document d := by
  cases text <;> simp [document?]

/-- A hash of a server on which scripts run, with its texts under their fields. -/
abbrev ScriptHash (ρ : Type) := Dict String (HashText ρ)

/-- What ends a script early. What it has written by then stays written. -/
inductive ScriptError
  | notAnInteger
  | overflow
  | comparedNil
  | addedNil
  | notADocument
  deriving DecidableEq, Repr

/-- A script, or a part of one. -/
abbrev HashScript (ρ : Type) := Attempt ScriptError (ScriptHash ρ)

namespace ScriptHash

variable {ρ : Type}

/-- The integer under a field; a field that is missing counts zero. -/
def stored (hash : ScriptHash ρ) (field : String) : Option Int :=
  match hash.get? field with
  | none => some 0
  | some (.decimal n) => some n
  | some _ => none

/-- The documents that a hash holds. -/
def documents (hash : ScriptHash ρ) : List ρ := hash.values.filterMap HashText.document?

variable {hash : ScriptHash ρ} {field other : String} {n : Int} {text : HashText ρ}

@[simp] theorem stored_empty : stored (Dict.empty : ScriptHash ρ) field = some 0 := rfl

theorem stored_insert_decimal :
    stored (hash.insert field (.decimal n)) other = if other = field then some n else stored hash other := by
  unfold stored
  rw [Dict.get?_insert]
  by_cases same : other = field
  · rw [if_pos same, if_pos same]
  · rw [if_neg same, if_neg same]

theorem stored_insert_of_ne (differ : other ≠ field) : stored (hash.insert field text) other = stored hash other := by
  rw [stored, Dict.get?_insert_of_ne differ, stored]

theorem stored_erase_of_ne (differ : other ≠ field) : stored (hash.erase field) other = stored hash other := by
  rw [stored, Dict.get?_erase_of_ne differ, stored]

/-- The documents of a hash that holds a dictionary, each entry under a field of its own, are the dictionary's values. -/
theorem documents_perm {κ ν : Type} [DecidableEq κ] {d : Dict κ ν} {name : κ → String} {shown : ν → ρ}
    (injective : Function.Injective name)
    (held : ∀ k, hash.get? (name k) = (d.get? k).map fun v => .document (shown v))
    (only : ∀ field document, hash.get? field = some (.document document) → ∃ k, field = name k) :
    hash.documents.Perm (d.values.map shown) := by
  have documentsEq : hash.documents =
      (hash.entries.filterMap fun e => e.2.document?.map fun document => (e.1, document)).map Prod.snd := by
    rw [documents, Dict.values, List.filterMap_map, List.map_filterMap]
    refine List.filterMap_congr fun e member => ?_
    rw [Option.map_map, Function.comp_apply]
    exact Option.map_id'.symm
  have valuesEq : d.values.map shown = (d.entries.map fun e => (name e.1, shown e.2)).map Prod.snd := by
    rw [Dict.values, List.map_map, List.map_map]
    rfl
  rw [documentsEq, valuesEq]
  refine List.Perm.map _ ((List.perm_ext_iff_of_nodup ?_ ?_).mpr fun pair => ?_)
  · refine List.Nodup.filterMap (fun e e' pair first second => ?_) (List.Nodup.of_map _ hash.nodup)
    obtain ⟨document, found, rfl⟩ := Option.map_eq_some_iff.mp first
    obtain ⟨document', found', same⟩ := Option.map_eq_some_iff.mp second
    rw [HashText.document?_eq_some] at found found'
    obtain ⟨fields, documents⟩ := Prod.mk.inj same
    exact Prod.ext fields.symm (by rw [found, found', documents])
  · refine List.Nodup.of_map Prod.fst ?_
    rw [List.map_map]
    have names : (d.keys.map name).Nodup := d.nodup.map injective
    rwa [Dict.keys, List.map_map] at names
  · rw [List.mem_filterMap, List.mem_map]
    constructor
    · rintro ⟨e, member, shows⟩
      obtain ⟨document, found, rfl⟩ := Option.map_eq_some_iff.mp shows
      rw [HashText.document?_eq_some] at found
      have here : hash.get? e.1 = some (.document document) := Dict.get?_eq_some_iff.mpr (found ▸ member)
      obtain ⟨k, named⟩ := only _ _ here
      rw [named, held] at here
      obtain ⟨v, inside, same⟩ := Option.map_eq_some_iff.mp here
      exact ⟨(k, v), Dict.get?_eq_some_iff.mp inside, by rw [named, HashText.document.inj same]⟩
    · rintro ⟨e, member, rfl⟩
      have inside : d.get? e.1 = some e.2 := Dict.get?_eq_some_iff.mpr member
      have here := held e.1
      rw [inside] at here
      exact ⟨_, Dict.get?_eq_some_iff.mp here, rfl⟩

end ScriptHash

namespace HashScript

variable {ρ : Type}

/-- `HGET key field` -/
def hget (field : String) : HashScript ρ (Option (HashText ρ)) := .read fun hash => hash.get? field

/-- `HEXISTS key field` -/
def hexists (field : String) : HashScript ρ Bool := .read fun hash => hash.contains field

/-- `HSET key field value` -/
def hset (field : String) (text : HashText ρ) : HashScript ρ Unit := .update fun hash => hash.insert field text

/-- `HDEL key field` -/
def hdel (field : String) : HashScript ρ Unit := .update fun hash => hash.erase field

/-- What a text is read as where a document is expected. -/
def decode : HashText ρ → HashScript ρ ρ
  | .document d => pure d
  | _ => .raise .notADocument

variable (numbers : ScriptNumbers)

/-- `HINCRBY key field change` -/
def hincrby (field : String) (change : Int) : HashScript ρ Unit := fun hash =>
  match numbers.argument change, hash.stored field with
  | some change, some n =>
    if -2 ^ 63 ≤ n + change ∧ n + change < 2 ^ 63 then (.ok (), hash.insert field (.decimal (n + change)))
    else (.error .overflow, hash)
  | _, _ => (.error .notAnInteger, hash)

/-- `tonumber(redis.call('HGET', key, field) or '0')`, where nothing is a text without a number. -/
def counter (field : String) : HashScript ρ (Option Int) := .read fun hash => (hash.stored field).map numbers.nearest

/-- `count >= limit` -/
def reaches (count : Option Int) (limit : Int) : HashScript ρ Bool :=
  match count with
  | none => .raise .comparedNil
  | some n => pure (decide (limit ≤ n))

/-- `count + change > limit` -/
def exceeds (count : Option Int) (change limit : Int) : HashScript ρ Bool :=
  match count with
  | none => .raise .addedNil
  | some n => pure (decide (limit < numbers.nearest (n + change)))

variable {numbers} {hash : ScriptHash ρ} {field : String} {text : HashText ρ} {count : Option Int} {change limit n : Int}

@[simp] theorem hget_run : hget field hash = (.ok (hash.get? field), hash) := rfl

@[simp] theorem hexists_run : hexists field hash = (.ok (hash.contains field), hash) := rfl

@[simp] theorem hset_run : hset field text hash = (.ok (), hash.insert field text) := rfl

@[simp] theorem hdel_run : hdel field hash = (.ok (), hash.erase field) := rfl

@[simp] theorem decode_run {d : ρ} : decode (.document d) hash = (.ok d, hash) := rfl

theorem counter_run (integer : hash.stored field = some n) (small : |n| ≤ 2 ^ 53) :
    counter numbers field hash = (.ok (some n), hash) := by
  unfold counter
  rw [Attempt.run_read, integer, Option.map_some, numbers.nearest_exact n small]

/-- A change of a counter that a script can hold exactly. -/
theorem hincrby_run (integer : hash.stored field = some n) (small : |change| < 10 ^ 14) (before : |n| < 10 ^ 14) :
    hincrby numbers field change hash = (.ok (), hash.insert field (.decimal (n + change))) := by
  rw [abs_lt] at small before
  unfold hincrby
  rw [numbers.argument_exact change (abs_lt.mpr small), integer]
  exact if_pos (by omega)

@[simp] theorem reaches_run : reaches (some n) limit hash = (.ok (decide (limit ≤ n)), hash) := rfl

@[simp] theorem exceeds_run :
    exceeds numbers (some n) change limit hash = (.ok (decide (limit < numbers.nearest (n + change))), hash) := rfl

end HashScript
