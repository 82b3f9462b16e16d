import Mathlib.Algebra.Ring.Int.Defs
import Mathlib.Algebra.Ring.Nat
import Mathlib.Data.List.Sort
import Mathlib.Tactic.Common

/-! JSON values with the comparisons a dynamically typed program makes on them.
Objects are association lists; `get` answers `null` for an absent key, as a
dictionary lookup with a default does, and `has` tells the two apart. -/

namespace Coordinator.Kit

/-- A decoded JSON document. A float is kept as the decimal `mantissa * 10 ^ exponent`
of its shortest printed form. -/
inductive Json where
  | null
  | bool (value : Bool)
  | int (value : Int)
  | float (mantissa exponent : Int)
  | str (value : String)
  | arr (items : List Json)
  | obj (fields : List (String × Json))

abbrev Dict := List (String × Json)

namespace Dict

def find (key : String) : Dict → Option Json
  | [] => none
  | (name, value) :: rest => if name = key then some value else find key rest

def get (fields : Dict) (key : String) : Json := (fields.find key).getD .null

def has (fields : Dict) (key : String) : Bool := (fields.find key).isSome

def keys (fields : Dict) : List String := fields.map Prod.fst

/-- Assignment keeps the position of a key that is present and appends a new one. -/
def set : Dict → String → Json → Dict
  | [], key, value => [(key, value)]
  | (name, old) :: rest, key, value =>
      if name = key then (key, value) :: rest else (name, old) :: set rest key value

def pop (fields : Dict) (key : String) : Dict := fields.filter (fun entry => entry.1 ≠ key)

def update (fields : Dict) (changes : Dict) : Dict :=
  changes.foldl (fun current entry => current.set entry.1 entry.2) fields

theorem find_set (fields : Dict) (key other : String) (value : Json) :
    (fields.set key value).find other = if other = key then some value else fields.find other := by
  induction fields with
  | nil =>
    by_cases same : other = key
    · simp [set, find, same]
    · simp [set, find, same, Ne.symm same]
  | cons entry rest ih =>
    obtain ⟨name, old⟩ := entry
    by_cases here : name = key
    · subst here
      by_cases same : other = name
      · simp [set, find, same]
      · simp [set, find, same, Ne.symm same]
    · by_cases same : name = other
      · subst same
        simp [set, find, here]
      · simp [set, find, here, same, ih]

theorem find_pop (fields : Dict) (key other : String) :
    (fields.pop key).find other = if other = key then none else fields.find other := by
  induction fields with
  | nil => simp [pop, find]
  | cons entry rest ih =>
    obtain ⟨name, value⟩ := entry
    by_cases here : name = key
    · subst here
      have skip : pop ((name, value) :: rest) name = pop rest name := by simp [pop]
      rw [skip, ih]
      by_cases same : other = name
      · simp [same]
      · simp [find, same, Ne.symm same]
    · have keep : pop ((name, value) :: rest) key = (name, value) :: pop rest key := by simp [pop, here]
      rw [keep]
      by_cases same : name = other
      · subst same
        simp [find, here]
      · simp [find, same, ih]

@[simp] theorem get_set (fields : Dict) (key other : String) (value : Json) :
    (fields.set key value).get other = if other = key then value else fields.get other := by
  unfold get
  rw [find_set]
  split <;> rfl

@[simp] theorem has_set (fields : Dict) (key other : String) (value : Json) :
    (fields.set key value).has other = (decide (other = key) || fields.has other) := by
  unfold has
  rw [find_set]
  by_cases same : other = key <;> simp [same]

@[simp] theorem get_pop (fields : Dict) (key other : String) :
    (fields.pop key).get other = if other = key then .null else fields.get other := by
  unfold get
  rw [find_pop]
  split <;> rfl

@[simp] theorem has_pop (fields : Dict) (key other : String) :
    (fields.pop key).has other = (decide (other ≠ key) && fields.has other) := by
  unfold has
  rw [find_pop]
  by_cases same : other = key <;> simp [same]

/-- An update leaves the other keys alone. -/
theorem get_update_of_not_mem {changes : Dict} {key : String} (absent : key ∉ changes.keys) :
    ∀ fields : Dict, (fields.update changes).get key = fields.get key := by
  induction changes with
  | nil =>
    intro fields
    rfl
  | cons entry rest ih =>
    intro fields
    simp only [keys, List.map_cons, List.mem_cons, not_or] at absent
    have skipped := ih absent.2 (fields.set entry.1 entry.2)
    rw [get_set, if_neg absent.1] at skipped
    exact skipped

theorem get_of_not_has {fields : Dict} {key : String} (absent : fields.has key = false) :
    fields.get key = .null := by
  unfold has at absent
  unfold get
  cases found : fields.find key with
  | none => rfl
  | some value => simp [found] at absent

theorem has_of_get_ne {fields : Dict} {key : String} (present : fields.get key ≠ .null) :
    fields.has key = true := by
  cases known : fields.has key with
  | true => rfl
  | false => exact absurd (get_of_not_has known) present

theorem mem_of_find {fields : Dict} {key : String} {value : Json} (found : fields.find key = some value) :
    (key, value) ∈ fields := by
  fun_induction find key fields with
  | case1 => cases found
  | case2 other rest =>
    cases found
    exact List.mem_cons_self
  | case3 name other rest differ ih => exact List.mem_cons_of_mem _ (ih found)

theorem mem_keys_iff_has (fields : Dict) (key : String) : key ∈ fields.keys ↔ fields.has key = true := by
  induction fields with
  | nil => simp [keys, has, find]
  | cons entry rest ih =>
    obtain ⟨name, value⟩ := entry
    by_cases same : name = key
    · simp [keys, has, find, same]
    · have shorter : has ((name, value) :: rest) key = has rest key := by simp [has, find, same]
      rw [shorter, ← ih]
      simp [keys, Ne.symm same]

theorem mem_keys_set {fields : Dict} {key other : String} {value : Json} :
    other ∈ (fields.set key value).keys ↔ other = key ∨ other ∈ fields.keys := by
  rw [mem_keys_iff_has, mem_keys_iff_has, has_set]
  simp

end Dict

namespace Json

/-- The object's fields, or no field at all for another value. -/
def fields : Json → Dict
  | .obj entries => entries
  | _ => []

def items : Json → List Json
  | .arr values => values
  | _ => []

def text : Json → String
  | .str value => value
  | _ => ""

def get (value : Json) (key : String) : Json := value.fields.get key

def has (value : Json) (key : String) : Bool := value.fields.has key

def isNull : Json → Bool
  | .null => true
  | _ => false

def isStr : Json → Bool
  | .str _ => true
  | _ => false

def isBool : Json → Bool
  | .bool _ => true
  | _ => false

def isArr : Json → Bool
  | .arr _ => true
  | _ => false

def isObj : Json → Bool
  | .obj _ => true
  | _ => false

/-- An instance of the integer class; booleans belong to it. -/
def int? : Json → Option Int
  | .int value => some value
  | .bool value => some (if value then 1 else 0)
  | _ => none

/-- A value whose type is exactly the integer type, which leaves booleans out. -/
def exactInt? : Json → Option Int
  | .int value => some value
  | _ => none

def truthy : Json → Bool
  | .null => false
  | .bool value => value
  | .int value => value != 0
  | .float mantissa _ => mantissa != 0
  | .str value => value != ""
  | .arr values => !values.isEmpty
  | .obj entries => !entries.isEmpty

/-- `mantissa * 10 ^ exponent` compared with another such decimal, without division. -/
def decimalEq (m e n f : Int) : Bool := m * 10 ^ (e - f).toNat == n * 10 ^ (f - e).toNat

mutual

/-- Equality of values: numbers compare by value across their types, objects regardless of order. -/
def eq : Json → Json → Bool
  | .null, .null => true
  | .bool a, .bool b => a == b
  | .bool a, .int b => (if a then 1 else 0) == b
  | .int a, .bool b => a == (if b then 1 else 0)
  | .bool a, .float n f => decimalEq (if a then 1 else 0) 0 n f
  | .float m e, .bool b => decimalEq m e (if b then 1 else 0) 0
  | .int a, .int b => a == b
  | .int a, .float n f => decimalEq a 0 n f
  | .float m e, .int b => decimalEq m e b 0
  | .float m e, .float n f => decimalEq m e n f
  | .str a, .str b => a == b
  | .arr a, .arr b => eqItems a b
  | .obj a, .obj b => a.length == b.length && eqFields a b
  | _, _ => false

def eqItems : List Json → List Json → Bool
  | [], [] => true
  | a :: as, b :: bs => eq a b && eqItems as bs
  | _, _ => false

def eqFields : List (String × Json) → List (String × Json) → Bool
  | [], _ => true
  | (key, a) :: rest, other =>
      (match Dict.find key other with
        | some b => eq a b
        | none => false) && eqFields rest other

end

instance : BEq Json := ⟨eq⟩

@[simp] theorem beq_str (value : Json) (word : String) : (value == .str word) = true ↔ value = .str word := by
  change eq value (.str word) = true ↔ _
  cases value <;> simp [eq]

theorem str_beq (word : String) (value : Json) : (Json.str word == value) = true ↔ value = .str word := by
  change eq (.str word) value = true ↔ _
  cases value with
  | str other =>
    rw [eq, beq_iff_eq, Json.str.injEq]
    exact eq_comm
  | _ => simp [eq]

@[simp] theorem beq_null (value : Json) : (value == .null) = true ↔ value = .null := by
  change eq value .null = true ↔ _
  cases value <;> simp [eq]

@[simp] theorem beq_int_int (a b : Int) : ((Json.int a) == .int b) = true ↔ a = b := by
  change eq (.int a) (.int b) = true ↔ _
  simp [eq]

@[simp] theorem str_beq_str (a b : String) : ((Json.str a) == .str b) = (a == b) := rfl

theorem beq_int_of_int? {value : Json} {a b : Int} (known : value.int? = some a) :
    (value == .int b) = true ↔ a = b := by
  change eq value (.int b) = true ↔ _
  cases value with
  | bool flag =>
    simp only [int?, Option.some.injEq] at known
    subst known
    simp [eq]
  | int number =>
    simp only [int?, Option.some.injEq] at known
    subst known
    simp [eq]
  | _ => simp [int?] at known

@[simp] theorem truthy_str (word : String) : (Json.str word).truthy = (word != "") := rfl

@[simp] theorem truthy_null : Json.null.truthy = false := rfl

@[simp] theorem get_obj (entries : Dict) (key : String) : (Json.obj entries).get key = entries.get key := rfl

@[simp] theorem has_obj (entries : Dict) (key : String) : (Json.obj entries).has key = entries.has key := rfl

theorem isNull_iff {value : Json} : value.isNull = true ↔ value = .null := by
  cases value <;> simp [isNull]

theorem isObj_iff {value : Json} : value.isObj = true ↔ ∃ entries, value = .obj entries := by
  cases value <;> simp [isObj]

theorem isArr_iff {value : Json} : value.isArr = true ↔ ∃ values, value = .arr values := by
  cases value <;> simp [isArr]

theorem isStr_iff {value : Json} : value.isStr = true ↔ ∃ word, value = .str word := by
  cases value <;> simp [isStr]

theorem exactInt?_eq_some {value : Json} {number : Int} : value.exactInt? = some number ↔ value = .int number := by
  cases value <;> simp [exactInt?]

theorem mem_fields_of_has {value : Json} {key : String} (present : value.has key = true) :
    (key, value.get key) ∈ value.fields := by
  rw [Json.has, Dict.has, Option.isSome_iff_exists] at present
  obtain ⟨found, located⟩ := present
  rw [Json.get, Dict.get, located, Option.getD_some]
  exact Dict.mem_of_find located

/-- Only objects have fields. -/
theorem isObj_of_get_ne {value : Json} {key : String} (present : value.get key ≠ .null) : value.isObj = true := by
  cases value with
  | obj entries => rfl
  | _ => exact absurd rfl present

/-- An object with exactly the listed keys. -/
def hasExactly (value : Json) (names : List String) : Bool :=
  value.isObj && names.all value.has && value.fields.keys.all (names.contains ·)

/-- A field of an object can be set without its keys changing. -/
theorem hasExactly_set {fields : Dict} {names : List String} {name : String} (exactly : (Json.obj fields).hasExactly names = true)
    (listed : name ∈ names) (entry : Json) : (Json.obj (fields.set name entry)).hasExactly names = true := by
  simp only [hasExactly, isObj, Bool.true_and, Bool.and_eq_true, List.all_eq_true, has, Json.fields,
    Dict.has_set, Bool.or_eq_true, decide_eq_true_eq, List.contains_iff_mem, Dict.mem_keys_set] at exactly ⊢
  refine ⟨fun other member => .inr (exactly.1 other member), ?_⟩
  rintro other (rfl | member)
  · exact listed
  · exact exactly.2 other member

end Json

end Coordinator.Kit
