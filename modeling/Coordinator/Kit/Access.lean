import Coordinator.Kit.Guard
import Coordinator.Kit.Text

/-! Access to values of unknown type in a language that raises when an operation has no meaning for a value: iteration,
subscripts, sets and membership. What such code raises is followed through its steps, so that an interpreter error that
nothing handles is told apart from an answer. -/

namespace Coordinator.Kit.Access

/-- An exception: the program's own, or one of the interpreter's. -/
inductive Raised where
  | own (message : String)
  | typeError (message : String)
  | valueError (message : String)
  | keyError (key : String)
  deriving DecidableEq

abbrev Checked (α : Type) := Except Raised α

def typeName : Json → String
  | .null => "NoneType"
  | .bool _ => "bool"
  | .int _ => "int"
  | .float .. => "float"
  | .str _ => "str"
  | .arr _ => "list"
  | .obj _ => "dict"

def hashable : Json → Bool
  | .arr _ => false
  | .obj _ => false
  | _ => true

def unhashable (value : Json) : Raised := .typeError ("unhashable type: '" ++ typeName value ++ "'")

/-- The elements of a list, the keys of an object or the characters of a text. -/
def iterate : Json → Checked (List Json)
  | .arr items => .ok items
  | .obj fields => .ok ((Dict.keys fields).map .str)
  | .str word => .ok (word.toList.map fun c => .str (String.ofList [c]))
  | value => .error (.typeError ("'" ++ typeName value ++ "' object is not iterable"))

/-- Each element of a set has to be hashable. -/
def hashed (items : List Json) : Checked Unit := items.forM fun item => raiseIf (!hashable item) (unhashable item)

/-- The elements from which a set is made. -/
def setOf (value : Json) : Checked (List Json) := do
  let items ← iterate value
  hashed items
  pure items

def subscript (value : Json) (key : String) : Checked Json :=
  match value with
  | .obj fields => orRaise (Dict.find key fields) (.keyError key)
  | .arr _ => .error (.typeError "list indices must be integers or slices, not str")
  | .str _ => .error (.typeError "string indices must be integers, not 'str'")
  | value => .error (.typeError ("'" ++ typeName value ++ "' object is not subscriptable"))

/-- Membership in a set of texts. -/
def isIn (value : Json) (names : List String) : Checked Bool := do
  raiseIf (!hashable value) (unhashable value)
  pure (names.any fun name => value == .str name)

/-- The texts of a list that holds nothing else. -/
def strings? : Json → Option (List String)
  | .arr items => if items.all Json.isStr then some (items.map Json.text) else none
  | _ => none

/-- A set of values and a set of texts have the same elements. -/
def sameNames (found : List Json) (names : List String) : Bool :=
  names.all (fun name => found.any (· == .str name)) && found.all (fun value => names.any fun name => value == .str name)

/-- A set of the values has as many elements as there are values. -/
def distinct : List Json → Bool
  | [] => true
  | value :: rest => !rest.any (value == ·) && distinct rest

theorem hashed_strs (words : List String) : hashed (words.map .str) = .ok () := by
  refine forM_eq_ok.mpr fun item member => ?_
  obtain ⟨word, -, rfl⟩ := List.mem_map.mp member
  rfl

theorem strings?_eq_some {value : Json} {words : List String} : strings? value = some words ↔ value = .arr (words.map .str) := by
  cases value with
  | arr items =>
    rw [strings?, Option.ite_none_right_eq_some, Option.some.injEq, Json.arr.injEq]
    constructor
    · rintro ⟨texts, rfl⟩
      rw [List.map_map]
      refine (List.map_id items).symm.trans (List.map_congr_left fun item member => ?_)
      obtain ⟨word, rfl⟩ := Json.isStr_iff.mp (List.all_eq_true.mp texts item member)
      rfl
    · rintro rfl
      refine ⟨List.all_eq_true.mpr ?_, ?_⟩
      · intro item member
        obtain ⟨word, -, rfl⟩ := List.mem_map.mp member
        rfl
      · rw [List.map_map]
        exact List.map_id words
  | _ => exact iff_of_false nofun nofun

theorem setOf_obj (fields : Dict) : setOf (.obj fields) = .ok (fields.keys.map .str) := by
  rw [setOf, iterate, ok_bind, hashed_strs]
  rfl

theorem setOf_strs (words : List String) : setOf (.arr (words.map .str)) = .ok (words.map .str) := by
  rw [setOf, iterate, ok_bind, hashed_strs]
  rfl

theorem any_strs {words : List String} {word : String} : (words.map Json.str).any (Json.str word == ·) = true ↔ word ∈ words := by
  rw [List.any_map, List.any_eq_true]
  simp only [Function.comp_apply, Json.str_beq_str, beq_iff_eq, exists_eq_right']

theorem sameNames_keys (fields : Dict) (names : List String) :
    sameNames (fields.keys.map .str) names = (Json.obj fields).hasExactly names := by
  have present (name : String) : ((fields.keys.map Json.str).any (· == .str name)) = (Json.obj fields).has name := by
    rw [Bool.eq_iff_iff, List.any_eq_true]
    refine Iff.trans ?_ (Dict.mem_keys_iff_has fields name)
    constructor
    · rintro ⟨value, member, same⟩
      obtain ⟨key, inside, rfl⟩ := List.mem_map.mp member
      rw [Json.beq_str, Json.str.injEq] at same
      exact same ▸ inside
    · exact fun inside => ⟨.str name, List.mem_map_of_mem inside, (Json.beq_str ..).mpr rfl⟩
  have known : ((fields.keys.map Json.str).all fun value => names.any fun name => value == .str name) =
      fields.keys.all (names.contains ·) := by
    rw [List.all_map]
    refine congrArg (List.all fields.keys) (funext fun key => ?_)
    rw [Function.comp_apply, List.contains_eq_any_beq]
    rfl
  rw [sameNames, known, Json.hasExactly]
  simp only [present, Json.isObj, Bool.true_and]
  rfl

theorem distinct_strs (words : List String) : distinct (words.map .str) = true ↔ words.Nodup := by
  induction words with
  | nil => exact iff_of_true rfl List.nodup_nil
  | cons word rest ih =>
    rw [List.map_cons, distinct, Bool.and_eq_true, ih, List.nodup_cons, Bool.not_eq_true', ← Bool.not_eq_true, any_strs]

theorem isObj_of_subscript {value found : Json} {key : String} (read : subscript value key = .ok found) : value.isObj = true := by
  cases value with
  | obj fields => rfl
  | _ => cases read

theorem subscript_of_exact {value : Json} {names : List String} {key : String} (exactly : value.hasExactly names = true)
    (listed : key ∈ names) : subscript value key = .ok (value.get key) := by
  simp only [Json.hasExactly, Bool.and_eq_true, List.all_eq_true] at exactly
  obtain ⟨⟨object, present⟩, -⟩ := exactly
  obtain ⟨fields, rfl⟩ := Json.isObj_iff.mp object
  obtain ⟨found, known⟩ := Option.isSome_iff_exists.mp (present key listed)
  have located : Dict.find key fields = some found := known
  rw [subscript, Json.get_obj, Dict.get, located]
  rfl

theorem isIn_of_hashable {value : Json} (fine : hashable value = true) (names : List String) :
    isIn value names = .ok (names.any fun name => value == .str name) := by
  rw [isIn, fine]
  rfl

variable {α β ε : Type} {allowed : Raised → Prop}

/-- Reading the elements of a list gives one value for each. -/
theorem mapM_eq_ok_iff {read : α → Except ε β} {items : List α} {values : List β} :
    items.mapM read = .ok values ↔ List.Forall₂ (fun item value => read item = .ok value) items values := by
  induction items generalizing values with
  | nil =>
    rw [List.mapM_nil, pure_eq_ok, List.forall₂_nil_left_iff]
    exact eq_comm
  | cons item rest ih =>
    simp only [List.mapM_cons, bind_eq_ok, pure_eq_ok]
    rw [List.forall₂_cons_left_iff]
    constructor
    · rintro ⟨value, read_, others, later, rfl⟩
      exact ⟨value, others, read_, ih.mp later, rfl⟩
    · rintro ⟨value, others, read_, later, rfl⟩
      exact ⟨value, read_, others, ih.mpr later, rfl⟩

/-- The elements of a list can all be read when each can. -/
theorem mapM_returns {read : α → Except ε β} {items : List α} :
    (∃ values, items.mapM read = .ok values) ↔ ∀ item ∈ items, ∃ value, read item = .ok value := by
  induction items with
  | nil => exact iff_of_true ⟨[], rfl⟩ (by simp)
  | cons item rest ih =>
    rw [List.forall_mem_cons, ← ih]
    simp only [List.mapM_cons, bind_eq_ok, pure_eq_ok]
    constructor
    · rintro ⟨_, value, first, others, later, -⟩
      exact ⟨⟨value, first⟩, others, later⟩
    · rintro ⟨⟨value, first⟩, others, later⟩
      exact ⟨_, value, first, others, later, rfl⟩

/-- Reading gives values of a kind when it gives one for each element. -/
theorem mapM_returns_all {read : α → Except ε β} {items : List α} {good : β → Prop} :
    (∃ values, items.mapM read = .ok values ∧ ∀ value ∈ values, good value) ↔
      ∀ item ∈ items, ∃ value, read item = .ok value ∧ good value := by
  induction items with
  | nil => exact iff_of_true ⟨[], rfl, by simp⟩ (by simp)
  | cons item rest ih =>
    rw [List.forall_mem_cons, ← ih]
    simp only [List.mapM_cons, bind_eq_ok, pure_eq_ok]
    constructor
    · rintro ⟨_, ⟨value, first, others, later, rfl⟩, all_⟩
      rw [List.forall_mem_cons] at all_
      exact ⟨⟨value, first, all_.1⟩, others, later, all_.2⟩
    · rintro ⟨⟨value, first, own⟩, others, later, all_⟩
      exact ⟨_, ⟨value, first, others, later, rfl⟩, List.forall_mem_cons.mpr ⟨own, all_⟩⟩

/-- Findings about the elements of a list are none at all when there are none about each. -/
theorem mapM_flatten_eq_nil {read : α → Except ε (List β)} {items : List α} :
    (∃ found, items.mapM read = .ok found ∧ found.flatten = []) ↔ ∀ item ∈ items, read item = .ok [] := by
  induction items with
  | nil => exact iff_of_true ⟨[], rfl, rfl⟩ (by simp)
  | cons item rest ih =>
    rw [List.forall_mem_cons, ← ih]
    simp only [List.mapM_cons, bind_eq_ok, pure_eq_ok]
    constructor
    · rintro ⟨_, ⟨first, read_, others, later, rfl⟩, none_⟩
      rw [List.flatten_cons, List.append_eq_nil_iff] at none_
      exact ⟨none_.1 ▸ read_, others, later, none_.2⟩
    · rintro ⟨read_, others, later, none_⟩
      exact ⟨_, ⟨[], read_, others, later, rfl⟩, none_⟩

/-- Every exception that the computation can raise is one of those allowed. -/
def Raises (allowed : Raised → Prop) (x : Checked α) : Prop := ∀ raised, x = .error raised → allowed raised

namespace Raises

theorem ok (value : α) : Raises allowed (.ok value) := by
  intro raised error
  cases error

theorem error {raised : Raised} (fine : allowed raised) : Raises allowed (.error raised : Checked α) := by
  intro other same
  cases same
  exact fine

theorem bind {x : Checked α} {f : α → Checked β} (first : Raises allowed x) (rest : ∀ value, x = .ok value → Raises allowed (f value)) :
    Raises allowed (x >>= f) := by
  intro raised failed
  obtain at_once | ⟨value, passed, later⟩ := bind_eq_error.mp failed
  · exact first raised at_once
  · exact rest value passed raised later

theorem raiseIf {bad : Bool} {raised : Raised} (fine : allowed raised) : Raises allowed (raiseIf bad raised) := by
  intro other failed
  exact (raiseIf_eq_error.mp failed).2 ▸ fine

theorem orRaise {found : Option α} {raised : Raised} (fine : allowed raised) : Raises allowed (orRaise found raised) := by
  cases found with
  | none => exact error fine
  | some value => exact ok value

theorem forM {items : List α} {check : α → Checked Unit} (each : ∀ item ∈ items, Raises allowed (check item)) :
    Raises allowed (items.forM check) := by
  induction items with
  | nil => exact ok ()
  | cons item rest ih =>
    rw [List.forall_mem_cons] at each
    exact bind each.1 fun _ _ => ih each.2

theorem mapM {items : List α} {read : α → Checked β} (each : ∀ item ∈ items, Raises allowed (read item)) :
    Raises allowed (items.mapM read) := by
  induction items with
  | nil => exact ok []
  | cons item rest ih =>
    rw [List.forall_mem_cons] at each
    rw [List.mapM_cons]
    exact bind each.1 fun _ _ => bind (ih each.2) fun _ _ => ok _

theorem iterate (value : Json) (fine : ∀ message, allowed (.typeError message)) : Raises allowed (iterate value) := by
  cases value <;> first | exact ok _ | exact error (fine _)

theorem hashed (items : List Json) (fine : ∀ message, allowed (.typeError message)) : Raises allowed (hashed items) :=
  forM fun _ _ => raiseIf (fine _)

theorem setOf (value : Json) (fine : ∀ message, allowed (.typeError message)) : Raises allowed (setOf value) :=
  bind (iterate value fine) fun _ _ => bind (hashed _ fine) fun _ _ => ok _

theorem isIn (value : Json) (names : List String) (fine : ∀ message, allowed (.typeError message)) : Raises allowed (isIn value names) :=
  bind (raiseIf (fine _)) fun _ _ => ok _

theorem subscript (value : Json) (key : String) (fine : ∀ message, allowed (.typeError message)) (absent : allowed (.keyError key)) :
    Raises allowed (subscript value key) := by
  cases value with
  | obj fields => exact orRaise absent
  | _ => exact error (fine _)

theorem ite {condition : Prop} [Decidable condition] {x y : Checked α} (left : Raises allowed x) (right : Raises allowed y) :
    Raises allowed (if condition then x else y) := by
  split
  next => exact left
  next => exact right

end Raises

end Coordinator.Kit.Access
