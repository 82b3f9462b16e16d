import Mathlib.Data.List.Nodup
import Mathlib.Logic.Relation
import Mathlib.Tactic.Common

/-! Tables of rows under a primary key. A guarded update rewrites the row that its key selects, an
insertion adds a row under a new key, and no row is ever deleted. -/

namespace Coordinator.Kit.Table

variable {Row Key : Type}

/-- A column without duplicates stays so when a new value comes in. -/
theorem nodup_snoc {column : Row → Key} {rows : List Row} {row : Row} (distinct : (rows.map column).Nodup)
    (fresh : ∀ other ∈ rows, column other ≠ column row) : ((rows ++ [row]).map column).Nodup := by
  rw [List.map_append, List.map_singleton, List.nodup_append]
  refine ⟨distinct, List.nodup_singleton _, fun a member b last => ?_⟩
  obtain ⟨other, there, rfl⟩ := List.mem_map.mp member
  rw [List.mem_singleton.mp last]
  exact fresh other there

/-- Rows with one key between them, under distinct keys, are at most one. -/
theorem length_le_one {key : Row → Key} {rows : List Row} (distinct : (rows.map key).Nodup)
    (same : ∀ first ∈ rows, ∀ second ∈ rows, key first = key second) : rows.length ≤ 1 := by
  match rows with
  | [] => exact Nat.zero_le 1
  | [row] => exact Nat.le_refl 1
  | first :: second :: rest =>
    rw [List.map_cons, List.nodup_cons] at distinct
    exact absurd (List.mem_map.mpr ⟨second, by simp, (same first (by simp) second (by simp)).symm⟩) distinct.1

/-- How the rows of a table develop: each row moves, and each new row is born under a new key. -/
structure Develops (key : Row → Key) (Born : Row → Prop) (Move : Row → Row → Prop) (before after : List Row) : Prop where
  stays : ∀ row ∈ before, ∃ next ∈ after, key next = key row
  comes : ∀ next ∈ after, (∃ row ∈ before, key row = key next ∧ Move row next) ∨
    (∀ row ∈ before, key row ≠ key next) ∧ Born next

namespace Develops

variable {key : Row → Key} {Born : Row → Prop} {Move : Row → Row → Prop} {before middle after rows : List Row} {row : Row}

theorem refl (stands : ∀ row, Move row row) (rows : List Row) : Develops key Born Move rows rows where
  stays row member := ⟨row, member, rfl⟩
  comes row member := Or.inl ⟨row, member, rfl, stands row⟩

/-- A row that is inserted under a new key leaves the others as they have become. -/
theorem append (develops : Develops key Born Move before after) (fresh : ∀ other ∈ before, key other ≠ key row) (born : Born row) :
    Develops key Born Move before (after ++ [row]) where
  stays other member := by
    obtain ⟨next, there, same⟩ := develops.stays other member
    exact ⟨next, List.mem_append_left _ there, same⟩
  comes next member := by
    rcases List.mem_append.mp member with old | new
    · exact develops.comes next old
    · rw [List.mem_singleton.mp new]
      exact Or.inr ⟨fresh, born⟩

/-- An insertion leaves the rows alone. -/
theorem insert (stands : ∀ row, Move row row) (fresh : ∀ other ∈ rows, key other ≠ key row) (born : Born row) :
    Develops key Born Move rows (rows ++ [row]) := (refl stands rows).append fresh born

/-- A rewriting of all rows that leaves their keys alone moves each of them. -/
theorem map {change : Row → Row} (same : ∀ row ∈ rows, key (change row) = key row)
    (moves : ∀ row ∈ rows, Move row (change row)) : Develops key Born Move rows (rows.map change) where
  stays row member := ⟨change row, List.mem_map_of_mem member, same row member⟩
  comes next member := by
    obtain ⟨row, there, rfl⟩ := List.mem_map.mp member
    exact Or.inl ⟨row, there, (same row there).symm, moves row there⟩

theorem trans (first : Develops key Born Move before middle) (second : Develops key Born Move middle after)
    (composes : ∀ {a b c}, Move a b → Move b c → Move a c) (bears : ∀ {a b}, Born a → Move a b → Born b) :
    Develops key Born Move before after where
  stays row member := by
    obtain ⟨between, there, same⟩ := first.stays row member
    obtain ⟨next, last, samer⟩ := second.stays between there
    exact ⟨next, last, samer.trans same⟩
  comes next member := by
    rcases second.comes next member with ⟨between, there, same, moves⟩ | ⟨fresh, born⟩
    · rcases first.comes between there with ⟨row, start, sameKey, moved⟩ | ⟨fresh, born⟩
      · exact Or.inl ⟨row, start, sameKey.trans same, composes moved moves⟩
      · exact Or.inr ⟨fun row start => same ▸ fresh row start, bears born moves⟩
    · refine Or.inr ⟨fun row start still => ?_, born⟩
      obtain ⟨between, there, same⟩ := first.stays row start
      exact fresh between there (same.trans still)

/-- Under distinct keys, the rows before and after of one key are joined by a move. -/
theorem move (develops : Develops key Born Move before after) (distinct : (before.map key).Nodup) {row next : Row}
    (member : row ∈ before) (there : next ∈ after) (same : key next = key row) : Move row next := by
  rcases develops.comes next there with ⟨other, start, sameKey, moves⟩ | ⟨fresh, -⟩
  · rw [List.inj_on_of_nodup_map distinct start member (sameKey.trans same)] at moves
    exact moves
  · exact absurd same.symm (fresh row member)

end Develops

section keyed

variable [DecidableEq Key] (key : Row → Key)

/-- The row under a key. -/
def select (rows : List Row) (k : Key) : Option Row := rows.find? (fun row => key row = k)

/-- Rewrite the row under a key where the guard lets it. -/
def update (rows : List Row) (k : Key) (guard : Row → Bool) (change : Row → Row) : List Row :=
  rows.map (fun row => if key row = k ∧ guard row = true then change row else row)

/-- The number of rows that a guarded update rewrites. -/
def matched (rows : List Row) (k : Key) (guard : Row → Bool) : Nat :=
  rows.countP (fun row => key row = k ∧ guard row = true)

variable {key} {rows : List Row} {k : Key} {guard : Row → Bool} {change : Row → Row} {row : Row}

theorem select_eq_some (found : select key rows k = some row) : row ∈ rows ∧ key row = k :=
  ⟨List.mem_of_find?_eq_some found, by simpa using List.find?_some found⟩

theorem select_eq_none : select key rows k = none ↔ ∀ row ∈ rows, key row ≠ k := by
  simp [select]

/-- Under distinct keys, the row that a key selects is the only one. -/
theorem select_of_mem (distinct : (rows.map key).Nodup) (member : row ∈ rows) : select key rows (key row) = some row := by
  cases found : select key rows (key row) with
  | none => exact absurd rfl (select_eq_none.mp found row member)
  | some other =>
    obtain ⟨there, same⟩ := select_eq_some found
    rw [List.inj_on_of_nodup_map distinct there member same]

theorem mem_update {next : Row} : next ∈ update key rows k guard change ↔
    ∃ row ∈ rows, (if key row = k ∧ guard row = true then change row else row) = next := by
  rw [update, List.mem_map]

/-- Under distinct keys, an update exchanges the one row that it rewrites. -/
theorem mem_update_of_mem (distinct : (rows.map key).Nodup) (member : row ∈ rows) (guarded : guard row = true) {next : Row} :
    next ∈ update key rows (key row) guard change ↔ next = change row ∨ next ∈ rows ∧ next ≠ row := by
  rw [mem_update]
  constructor
  · rintro ⟨other, there, rfl⟩
    by_cases same : other = row
    · subst same
      rw [if_pos ⟨rfl, guarded⟩]
      exact Or.inl rfl
    · have apart : key other ≠ key row := fun equal => same (List.inj_on_of_nodup_map distinct there member equal)
      rw [if_neg fun both => apart both.1]
      exact Or.inr ⟨there, same⟩
  · rintro (rfl | ⟨there, apart⟩)
    · exact ⟨row, member, if_pos ⟨rfl, guarded⟩⟩
    · exact ⟨next, there, if_neg fun both => apart (List.inj_on_of_nodup_map distinct there member both.1)⟩

/-- A column that the change leaves alone is the same in every row. -/
theorem map_update {Column : Type} (column : Row → Column) (same : ∀ row, column (change row) = column row) :
    (update key rows k guard change).map column = rows.map column := by
  rw [update, List.map_map]
  refine List.map_congr_left fun row _ => ?_
  change column (if _ then _ else _) = _
  split
  · exact same row
  · rfl

theorem select_update (same : ∀ row, key (change row) = key row) (k' : Key) :
    select key (update key rows k guard change) k' =
      (select key rows k').map (fun row => if key row = k ∧ guard row = true then change row else row) := by
  rw [select, select, update, List.find?_map]
  congr 2
  funext row
  change decide (key (if _ then _ else _) = k') = _
  split
  · rw [same]
  · rfl

/-- A guarded update moves the row that it rewrites. -/
theorem Develops.update {Born : Row → Prop} {Move : Row → Row → Prop} (stands : ∀ row, Move row row)
    (same : ∀ row, key (change row) = key row) (moves : ∀ row ∈ rows, key row = k → guard row = true → Move row (change row)) :
    Develops key Born Move rows (update key rows k guard change) := by
  refine .map (fun row _ => ?_) fun row member => ?_
  · split
    · exact same row
    · rfl
  · split
    · next matches_ => exact moves row member matches_.1 matches_.2
    · exact stands row

end keyed

end Coordinator.Kit.Table
