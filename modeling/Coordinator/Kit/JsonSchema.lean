import Coordinator.Kit.Text

/-! The part of a schema language for JSON documents that closed records need: constants, enumerations, texts under a
pattern, arrays, and objects whose properties are all required with no others allowed. -/

namespace Coordinator.Kit.JsonSchema

mutual

/-- Equality of documents: numbers by value however they are written, truth values apart from numbers. -/
def equal : Json → Json → Bool
  | .null, .null => true
  | .bool a, .bool b => a == b
  | .int a, .int b => a == b
  | .int a, .float n f => Json.decimalEq a 0 n f
  | .float m e, .int b => Json.decimalEq m e b 0
  | .float m e, .float n f => Json.decimalEq m e n f
  | .str a, .str b => a == b
  | .arr a, .arr b => equalItems a b
  | .obj a, .obj b => a.length == b.length && equalFields a b
  | _, _ => false

def equalItems : List Json → List Json → Bool
  | [], [] => true
  | a :: as, b :: bs => equal a b && equalItems as bs
  | _, _ => false

def equalFields : List (String × Json) → List (String × Json) → Bool
  | [], _ => true
  | (key, a) :: rest, other =>
      (match Dict.find key other with
        | some b => equal a b
        | none => false) && equalFields rest other

end

inductive Schema where
  | const (value : Json)
  | enum (values : List Json)
  | string (pattern : String → Bool) (minLength : Nat) (maxLength : Option Nat)
  | array (minItems : Nat) (uniqueItems : Bool) (items : Schema)
  | closed (properties : List (String × Schema))

/-- No two of the documents are equal. -/
def unique : List Json → Bool
  | [] => true
  | value :: rest => !rest.any (equal value) && unique rest

mutual

def accepts : Schema → Json → Bool
  | .const expected, value => equal value expected
  | .enum values, value => values.any (equal value)
  | .string pattern minLength maxLength, value =>
      value.isStr && pattern value.text && minLength ≤ value.text.length && maxLength.all (value.text.length ≤ ·)
  | .array minItems uniqueItems items, value =>
      value.isArr && minItems ≤ value.items.length && (!uniqueItems || unique value.items) && value.items.all (accepts items)
  | .closed properties, value => value.hasExactly (properties.map Prod.fst) && acceptsEach properties value

def acceptsEach : List (String × Schema) → Json → Bool
  | [], _ => true
  | (name, schema) :: rest, value => accepts schema (value.get name) && acceptsEach rest value

end

theorem equal_str {value : Json} {word : String} : equal value (.str word) = true ↔ value = .str word := by
  cases value <;> simp [equal]

theorem accepts_enum {value : Json} {words : List String} :
    accepts (.enum (words.map .str)) value = true ↔ ∃ word ∈ words, value = .str word := by
  rw [accepts, List.any_map, List.any_eq_true]
  simp only [Function.comp_apply, equal_str]

/-- Texts are unique when they are pairwise different. -/
theorem unique_strs (words : List String) : unique (words.map .str) = true ↔ words.Nodup := by
  induction words with
  | nil => simp [unique]
  | cons word rest ih =>
    have other : ((rest.map Json.str).any (equal (.str word)) = true) ↔ word ∈ rest := by
      rw [List.any_map, List.any_eq_true]
      simp only [Function.comp_apply, equal_str, Json.str.injEq, exists_eq_right']
    rw [List.map_cons, unique, Bool.and_eq_true, ih, List.nodup_cons, ← other]
    simp

theorem accepts_string {pattern : String → Bool} {minLength : Nat} {maxLength : Option Nat} {value : Json} :
    accepts (.string pattern minLength maxLength) value = true ↔
      ∃ word, value = .str word ∧ pattern word = true ∧ minLength ≤ word.length ∧ ∀ limit ∈ maxLength, word.length ≤ limit := by
  cases value with
  | str word =>
    rw [accepts]
    simp only [Bool.and_eq_true, decide_eq_true_eq, Option.all_eq_true, and_assoc]
    simp only [Json.isStr, Json.text, true_and, Json.str.injEq, exists_eq_left', Option.mem_def]
  | _ => exact iff_of_false (by simp [accepts, Json.isStr]) (by simp)

theorem accepts_array {minItems : Nat} {uniqueItems : Bool} {items : Schema} {value : Json} :
    accepts (.array minItems uniqueItems items) value = true ↔
      ∃ values, value = .arr values ∧ minItems ≤ values.length ∧ (uniqueItems = true → unique values = true) ∧
        ∀ item ∈ values, accepts items item = true := by
  cases value with
  | arr values =>
    rw [accepts]
    simp only [Bool.and_eq_true, decide_eq_true_eq, List.all_eq_true, and_assoc, Bool.or_eq_true, Bool.not_eq_true',
      ← Bool.not_eq_true, ← imp_iff_not_or]
    simp only [Json.isArr, Json.items, true_and, Json.arr.injEq, exists_eq_left']
  | _ => exact iff_of_false (by simp [accepts, Json.isArr]) (by simp)

theorem accepts_closed {properties : List (String × Schema)} {value : Json} :
    accepts (.closed properties) value = true ↔ value.hasExactly (properties.map Prod.fst) = true ∧
      ∀ property ∈ properties, accepts property.2 (value.get property.1) = true := by
  have each : ∀ properties : List (String × Schema), acceptsEach properties value = true ↔
      ∀ property ∈ properties, accepts property.2 (value.get property.1) = true := by
    intro properties
    induction properties with
    | nil => simp [acceptsEach]
    | cons property rest ih =>
      obtain ⟨name, schema⟩ := property
      rw [acceptsEach, Bool.and_eq_true, ih, List.forall_mem_cons]
  rw [accepts, Bool.and_eq_true, each]

end Coordinator.Kit.JsonSchema
