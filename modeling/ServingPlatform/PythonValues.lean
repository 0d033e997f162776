import Mathlib.Algebra.Order.Floor.Defs
import Mathlib.Data.Rat.Floor
import ServingPlatform.Errors
import ServingPlatform.Library.Binary64
import ServingPlatform.Library.Dict

namespace ServingPlatform

/-- A float, by its value. -/
inductive PyFloat
  | finite (value : Rat)
  | infinite (negative : Bool)
  | nan
  deriving DecidableEq

namespace PyFloat

/-- `math.isfinite(x)` -/
def isFinite : PyFloat → Bool
  | finite _ => true
  | infinite _ | nan => false

/-- `x < 0` -/
def isNegative : PyFloat → Bool
  | finite value => value < 0
  | infinite negative => negative
  | nan => false

/-- `float(n)` -/
def ofInt (n : Int) : Except Raised PyFloat :=
  match Binary64.ofInt n with
  | some (.finite negative magnitude) => .ok (.finite (if negative then -magnitude.toRat else magnitude.toRat))
  | _ => .error ⟨.overflowError, "int too large to convert to float"⟩

/-- `int(x)` -/
def truncate : PyFloat → Except Raised Int
  | finite value => .ok (if 0 ≤ value then ⌊value⌋ else ⌈value⌉)
  | infinite _ => .error ⟨.overflowError, "cannot convert float infinity to integer"⟩
  | nan => .error (valueError "cannot convert float NaN to integer")

end PyFloat

/-- The values that a payload is made of. A dictionary has its entries in their order. -/
inductive PyValue
  | none
  | bool (b : Bool)
  | int (n : Int)
  | float (x : PyFloat)
  | str (s : String)
  | list (items : List PyValue)
  | tuple (items : List PyValue)
  | dict (entries : List (String × PyValue))

/-- How Python writes the values that are no text, and reads numbers from text. -/
structure PyText where
  repr : PyValue → String
  parseInt : String → Option Int
  parseFloat : String → Option PyFloat

def typeError (message : String) : Raised := ⟨.typeError, message⟩

namespace PyValue

def typeName : PyValue → String
  | none => "NoneType"
  | bool _ => "bool"
  | int _ => "int"
  | float _ => "float"
  | str _ => "str"
  | list _ => "list"
  | tuple _ => "tuple"
  | dict _ => "dict"

/-- `bool(value)` -/
def truth : PyValue → Bool
  | none => false
  | bool b => b
  | int n => n ≠ 0
  | float x => x ≠ .finite 0
  | str s => s ≠ ""
  | list items | tuple items => items ≠ []
  | dict entries => entries ≠ []

variable (text : PyText)

/-- `str(value)` -/
def toStr : PyValue → String
  | none => "None"
  | bool b => if b then "True" else "False"
  | int n => toString n
  | str s => s
  | value => text.repr value

/-- `int(value)` -/
def toInt : PyValue → Except Raised Int
  | bool b => .ok b.toNat
  | int n => .ok n
  | float x => x.truncate
  | str s =>
    match text.parseInt s with
    | some n => .ok n
    | .none => .error (valueError s!"invalid literal for int() with base 10: {text.repr (str s)}")
  | value => .error (typeError
    s!"int() argument must be a string, a bytes-like object or a real number, not '{value.typeName}'")

/-- `float(value)` -/
def toFloat : PyValue → Except Raised PyFloat
  | bool b => PyFloat.ofInt b.toNat
  | int n => PyFloat.ofInt n
  | float x => .ok x
  | str s =>
    match text.parseFloat s with
    | some x => .ok x
    | .none => .error (valueError s!"could not convert string to float: {text.repr (str s)}")
  | value => .error (typeError s!"float() argument must be a string or a real number, not '{value.typeName}'")

/-- `payload[key]` -/
def getItem (payload : List (String × PyValue)) (key : String) : Except Raised PyValue :=
  match Dict.lookupEntry key payload with
  | some value => .ok value
  | .none => .error (keyError s!"'{key}'")

/-- `payload.get(key)` -/
def get (payload : List (String × PyValue)) (key : String) : PyValue := (Dict.lookupEntry key payload).getD none

end PyValue

/-- A JSON document. Its numbers are integers or have a fraction or an exponent. -/
inductive Json
  | null
  | bool (b : Bool)
  | integer (n : Int)
  | real (x : PyFloat)
  | string (s : String)
  | array (items : List Json)
  | object (members : List (String × Json))

/-- The options of `json.dumps` that decide what a document says. -/
structure JsonOptions where
  allowNan : Bool
  sortKeys : Bool

namespace Json

/-- `sort_keys` -/
def sortMembers {ν : Type} (o : JsonOptions) (members : List (String × ν)) : List (String × ν) :=
  if o.sortKeys then members.insertionSort (fun a b => a.1 ≤ b.1) else members

mutual

/-- `json.dumps(value)`, as the document that its text spells. -/
def dumps (o : JsonOptions) : PyValue → Except Raised Json
  | .none => .ok .null
  | .bool b => .ok (.bool b)
  | .int n => .ok (.integer n)
  | .float x =>
    if x.isFinite || o.allowNan then .ok (.real x)
    else .error (valueError "Out of range float values are not JSON compliant")
  | .str s => .ok (.string s)
  | .list items | .tuple items => (dumpsItems o items).map .array
  | .dict entries => (dumpsEntries o entries).map fun members => .object (sortMembers o members)

def dumpsItems (o : JsonOptions) : List PyValue → Except Raised (List Json)
  | [] => .ok []
  | item :: rest =>
    match dumps o item, dumpsItems o rest with
    | .ok item, .ok rest => .ok (item :: rest)
    | .error raised, _ | _, .error raised => .error raised

def dumpsEntries (o : JsonOptions) : List (String × PyValue) → Except Raised (List (String × Json))
  | [] => .ok []
  | (key, value) :: rest =>
    match dumps o value, dumpsEntries o rest with
    | .ok value, .ok rest => .ok ((key, value) :: rest)
    | .error raised, _ | _, .error raised => .error raised

end

mutual

/-- `json.loads(text)`: of two members of one name the later one counts. -/
def loads : Json → PyValue
  | .null => .none
  | .bool b => .bool b
  | .integer n => .int n
  | .real x => .float x
  | .string s => .str s
  | .array items => .list (loadsItems items)
  | .object members => .dict ((loadsMembers members).foldl (fun entries e => Dict.insertEntry e.1 e.2 entries) [])

def loadsItems : List Json → List PyValue
  | [] => []
  | item :: rest => loads item :: loadsItems rest

def loadsMembers : List (String × Json) → List (String × PyValue)
  | [] => []
  | (key, value) :: rest => (key, loads value) :: loadsMembers rest

end

end Json

namespace PyValue

mutual

/-- What `json.dumps` does not change or refuse. -/
def Plain (o : JsonOptions) : PyValue → Prop
  | none | bool _ | int _ | str _ => True
  | float x => (x.isFinite || o.allowNan) = true
  | tuple _ => False
  | list items => PlainItems o items
  | dict entries => (entries.map Prod.fst).Nodup ∧ PlainEntries o entries

def PlainItems (o : JsonOptions) : List PyValue → Prop
  | [] => True
  | item :: rest => Plain o item ∧ PlainItems o rest

def PlainEntries (o : JsonOptions) : List (String × PyValue) → Prop
  | [] => True
  | (_, value) :: rest => Plain o value ∧ PlainEntries o rest

end

mutual

/-- The value with its dictionaries in the order that a document gives them. -/
def arranged (o : JsonOptions) : PyValue → PyValue
  | list items => list (arrangedItems o items)
  | dict entries => dict (Json.sortMembers o (arrangedEntries o entries))
  | value => value

def arrangedItems (o : JsonOptions) : List PyValue → List PyValue
  | [] => []
  | item :: rest => arranged o item :: arrangedItems o rest

def arrangedEntries (o : JsonOptions) : List (String × PyValue) → List (String × PyValue)
  | [] => []
  | (key, value) :: rest => (key, arranged o value) :: arrangedEntries o rest

end

theorem arrangedEntries_eq_map (o : JsonOptions) (entries : List (String × PyValue)) :
    arrangedEntries o entries = entries.map fun e => (e.1, arranged o e.2) := by
  induction entries with
  | nil => rfl
  | cons e rest ih => rw [arrangedEntries, ih, List.map_cons]

end PyValue

namespace Json

variable {o : JsonOptions}

theorem loadsMembers_eq_map (members : List (String × Json)) :
    loadsMembers members = members.map fun e => (e.1, loads e.2) := by
  induction members with
  | nil => rfl
  | cons e rest ih => rw [loadsMembers, ih, List.map_cons]

/-- The order of the members does not depend on their values. -/
theorem sortMembers_map {ν μ : Type} (f : ν → μ) (members : List (String × ν)) :
    sortMembers o (members.map fun e => (e.1, f e.2)) = (sortMembers o members).map fun e => (e.1, f e.2) := by
  unfold sortMembers
  split
  · refine (List.map_insertionSort (r := fun a b : String × ν => a.1 ≤ b.1) (s := fun a b : String × μ => a.1 ≤ b.1)
      (fun e => (e.1, f e.2)) members fun _ _ _ _ => Iff.rfl).symm
  · rfl

theorem sortMembers_perm {ν : Type} (members : List (String × ν)) : (sortMembers o members).Perm members := by
  unfold sortMembers
  split
  · exact List.perm_insertionSort _ _
  · exact .refl _

/-- Members of different names are all kept. -/
theorem foldl_insertEntry {ν : Type} (entries members : List (String × ν))
    (distinct : ((entries ++ members).map Prod.fst).Nodup) :
    members.foldl (fun entries e => Dict.insertEntry e.1 e.2 entries) entries = entries ++ members := by
  induction members generalizing entries with
  | nil => simp
  | cons e rest ih =>
    have fresh : e.1 ∉ entries.map Prod.fst := by
      intro member
      rw [List.map_append, List.nodup_append] at distinct
      exact distinct.2.2 e.1 member e.1 List.mem_cons_self rfl
    rw [List.foldl_cons, Dict.insertEntry_of_fresh fresh, ih]
    · simp
    · rw [List.append_assoc]
      exact distinct

mutual

/-- What is written is read back, in the order in which it was written. -/
theorem loads_dumps (v : PyValue) (plain : v.Plain o) :
    ∃ document, dumps o v = .ok document ∧ loads document = v.arranged o := by
  cases v with
  | none => exact ⟨_, rfl, rfl⟩
  | bool b => exact ⟨_, rfl, rfl⟩
  | int n => exact ⟨_, rfl, rfl⟩
  | str s => exact ⟨_, rfl, rfl⟩
  | float x =>
    have finite : (x.isFinite || o.allowNan) = true := plain
    exact ⟨.real x, by rw [dumps, if_pos finite], rfl⟩
  | tuple items => exact plain.elim
  | list items =>
    obtain ⟨documents, written, read⟩ := loads_dumpsItems items plain
    exact ⟨.array documents, by rw [dumps, written]; rfl, by rw [loads, read, PyValue.arranged]⟩
  | dict entries =>
    obtain ⟨members, written, read⟩ := loads_dumpsEntries entries plain.2
    refine ⟨.object (sortMembers o members), by rw [dumps, written]; rfl, ?_⟩
    rw [loads, loadsMembers_eq_map, ← sortMembers_map, ← loadsMembers_eq_map, read, PyValue.arranged]
    rw [foldl_insertEntry, List.nil_append]
    have same : (PyValue.arrangedEntries o entries).map Prod.fst = entries.map Prod.fst := by
      rw [PyValue.arrangedEntries_eq_map, List.map_map]
      rfl
    rw [List.nil_append, ((sortMembers_perm _).map Prod.fst).nodup_iff, same]
    exact plain.1

theorem loads_dumpsItems (items : List PyValue) (plain : PyValue.PlainItems o items) :
    ∃ documents, dumpsItems o items = .ok documents ∧ loadsItems documents = PyValue.arrangedItems o items := by
  cases items with
  | nil => exact ⟨[], rfl, rfl⟩
  | cons item rest =>
    obtain ⟨document, written, read⟩ := loads_dumps item plain.1
    obtain ⟨documents, written', read'⟩ := loads_dumpsItems rest plain.2
    refine ⟨document :: documents, by rw [dumpsItems, written, written'], ?_⟩
    rw [loadsItems, read, read', PyValue.arrangedItems]

theorem loads_dumpsEntries (entries : List (String × PyValue)) (plain : PyValue.PlainEntries o entries) :
    ∃ members, dumpsEntries o entries = .ok members ∧ loadsMembers members = PyValue.arrangedEntries o entries := by
  cases entries with
  | nil => exact ⟨[], rfl, rfl⟩
  | cons e rest =>
    obtain ⟨key, value⟩ := e
    obtain ⟨document, written, read⟩ := loads_dumps value plain.1
    obtain ⟨members, written', read'⟩ := loads_dumpsEntries rest plain.2
    refine ⟨(key, document) :: members, by rw [dumpsEntries, written, written'], ?_⟩
    rw [loadsMembers, read, read', PyValue.arrangedEntries]

end

mutual

/-- Without `sort_keys` nothing is moved. -/
theorem arranged_unsorted (unsorted : o.sortKeys = false) (v : PyValue) : v.arranged o = v := by
  cases v with
  | list items => rw [PyValue.arranged, arrangedItems_unsorted unsorted]
  | dict entries =>
    rw [PyValue.arranged, arrangedEntries_unsorted unsorted]
    unfold sortMembers
    rw [unsorted]
    rfl
  | _ => rw [PyValue.arranged] <;> simp

theorem arrangedItems_unsorted (unsorted : o.sortKeys = false) (items : List PyValue) :
    PyValue.arrangedItems o items = items := by
  cases items with
  | nil => rfl
  | cons item rest => rw [PyValue.arrangedItems, arranged_unsorted unsorted, arrangedItems_unsorted unsorted]

theorem arrangedEntries_unsorted (unsorted : o.sortKeys = false) (entries : List (String × PyValue)) :
    PyValue.arrangedEntries o entries = entries := by
  cases entries with
  | nil => rfl
  | cons e rest => rw [PyValue.arrangedEntries, arranged_unsorted unsorted, arrangedEntries_unsorted unsorted]

end

end Json

end ServingPlatform
