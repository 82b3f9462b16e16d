import Mathlib.Data.List.Sort
import Mathlib.Tactic.Common

/-! Journals with a bounded tail. A record that is pushed on a full journal pushes the oldest one out,
and the last word on a key is what the journal then still says about it. -/

namespace Coordinator.Kit.Journal

variable {α κ : Type} [DecidableEq κ] (key : α → κ)

/-- The last record under a key. -/
def latest (journal : List α) (k : κ) : Option α := (journal.filter (fun record => key record = k)).getLast?

/-- The last records, up to a bound. -/
def retain (bound : Nat) (journal : List α) : List α := journal.drop (journal.length - bound)

/-- A record comes last, and the oldest goes where the bound is passed. -/
def push (bound : Nat) (journal : List α) (record : α) : List α := retain bound (journal ++ [record])

/-- The record that a push would push out is not the last word on its key. -/
def Spared (bound : Nat) (journal : List α) (record : α) : Prop :=
  bound ≤ journal.length → ∀ oldest rest, journal = oldest :: rest → ∃ later ∈ rest ++ [record], key later = key oldest

/-- To make room for some records of one key, a journal pushes out the last word on another key only
where it may be forgotten. -/
def Sheds (bound count : Nat) (k : κ) (forgettable : α → Prop) (journal : List α) : Prop :=
  ∀ last, latest key (journal.take (journal.length + count - bound)) (key last) = some last →
    forgettable last ∨ key last = k ∨ ∃ later ∈ journal.drop (journal.length + count - bound), key later = key last

variable {key} {journal rest recorded : List α} {record oldest : α} {k : κ} {bound : Nat}

theorem latest_append (journal : List α) (record : α) (k : κ) :
    latest key (journal ++ [record]) k = if key record = k then some record else latest key journal k := by
  rw [latest, List.filter_append]
  by_cases same : key record = k
  · simp [same]
  · simp [same, latest]

theorem latest_mem (found : latest key journal k = some record) : record ∈ journal ∧ key record = k := by
  have member := List.mem_of_getLast? found
  rw [List.mem_filter, decide_eq_true_eq] at member
  exact member

theorem latest_eq_none : latest key journal k = none ↔ ∀ record ∈ journal, key record ≠ k := by
  simp [latest]

/-- The last word is among the later records, or else among the earlier ones. -/
theorem latest_append_or : latest key (journal ++ rest) k = (latest key rest k).or (latest key journal k) := by
  rw [latest, List.filter_append, List.getLast?_append]
  rfl

/-- Records under other keys say nothing about a key. -/
theorem latest_append_others (others : ∀ record ∈ rest, key record ≠ k) :
    latest key (journal ++ rest) k = latest key journal k := by
  rw [latest_append_or, latest_eq_none.mpr others, Option.none_or]

/-- Under another key, or with a later record of its own, the first record does not matter. -/
theorem latest_cons (later : key oldest = k → ∃ other ∈ rest, key other = k) :
    latest key (oldest :: rest) k = latest key rest k := by
  rw [latest, latest, List.filter_cons]
  split
  · next same =>
    rw [decide_eq_true_eq] at same
    obtain ⟨other, member, named⟩ := later same
    have some_ : rest.filter (fun record => key record = k) ≠ [] :=
      List.ne_nil_of_mem (List.mem_filter.mpr ⟨member, by simpa using named⟩)
    rw [List.getLast?_cons, List.getLast?_eq_some_getLast some_]
    rfl
  · rfl

/-- What has been retained before need not be kept apart. -/
theorem retain_append (bound : Nat) (journal rest : List α) :
    retain bound (retain bound journal ++ rest) = retain bound (journal ++ rest) := by
  simp only [retain, List.length_append, List.length_drop]
  by_cases short : journal.length ≤ bound
  · rw [Nat.sub_eq_zero_of_le short, List.drop_zero, Nat.sub_zero]
  · have head : journal.drop (journal.length - bound) ++ rest = (journal ++ rest).drop (journal.length - bound) :=
      (List.drop_append_of_le_length (by omega)).symm
    rw [head, List.drop_drop]
    congr 1
    omega

theorem push_eq (room : journal.length < bound) : push bound journal record = journal ++ [record] := by
  have none : (journal ++ [record]).length - bound = 0 := by
    rw [List.length_append, List.length_singleton]
    omega
  rw [push, retain, none, List.drop_zero]

theorem push_full (full : (oldest :: rest).length = bound) :
    push bound (oldest :: rest) record = rest ++ [record] := by
  have one : (oldest :: rest ++ [record]).length - bound = 1 := by
    rw [List.length_append, List.length_singleton]
    omega
  rw [push, retain, one]
  rfl

theorem retain_length : (retain bound journal).length ≤ bound := by
  rw [retain, List.length_drop]
  omega

theorem push_length : (push bound journal record).length ≤ bound := retain_length

/-- What a push leaves of a journal within its bound. -/
theorem push_cases (within : journal.length ≤ bound) (positive : 0 < bound) :
    (journal.length < bound ∧ push bound journal record = journal ++ [record]) ∨
      ∃ oldest rest, journal = oldest :: rest ∧ journal.length = bound ∧ push bound journal record = rest ++ [record] := by
  by_cases room : journal.length < bound
  · exact .inl ⟨room, push_eq room⟩
  · have full : journal.length = bound := by omega
    cases journal with
    | nil => exact absurd full (Nat.ne_of_lt positive)
    | cons oldest rest => exact .inr ⟨oldest, rest, rfl, full, push_full full⟩

theorem exists_latest (member : record ∈ journal) : ∃ last, latest key journal (key record) = some last := by
  cases found : latest key journal (key record) with
  | none => exact absurd rfl (latest_eq_none.mp found record member)
  | some last => exact ⟨last, rfl⟩

/-- Where the records under one key are in order, each of them comes before the latest. -/
theorem before_latest {R : α → α → Prop} {last : α}
    (ordered : journal.Pairwise (fun earlier later => key earlier = key later → R earlier later))
    (found : latest key journal (key record) = some last) (member : record ∈ journal) : record = last ∨ R record last := by
  obtain ⟨front, split⟩ := List.getLast?_eq_some_iff.mp found
  have listed : record ∈ front ++ [last] := split ▸ List.mem_filter.mpr ⟨member, by simp⟩
  have kept := ordered.sublist (List.filter_sublist (p := fun other => key other = key record))
  obtain earlier | same := List.mem_append.mp listed
  · rw [split, List.pairwise_append] at kept
    exact .inr (kept.2.2 record earlier last (List.mem_singleton_self _) (latest_mem found).2.symm)
  · exact .inl (List.mem_singleton.mp same)

/-- The end of a journal knows nothing newer than the whole. -/
theorem latest_of_suffix (suffix : rest <:+ journal) (found : latest key rest k = some record) :
    latest key journal k = some record := by
  obtain ⟨front, rfl⟩ := suffix
  rw [latest_append_or, found, Option.some_or]

theorem push_suffix (bound : Nat) (journal : List α) (record : α) : push bound journal record <:+ journal ++ [record] :=
  List.drop_suffix _ _

theorem push_sublist (bound : Nat) (journal : List α) (record : α) : (push bound journal record).Sublist (journal ++ [record]) :=
  List.drop_sublist _ _

/-- Every key keeps its last word exactly when the record that is pushed out is spared. -/
theorem latest_push_iff (within : journal.length ≤ bound) (positive : 0 < bound) :
    (∀ k, latest key (push bound journal record) k = latest key (journal ++ [record]) k) ↔
      Spared key bound journal record := by
  obtain ⟨room, pushed⟩ | ⟨oldest, rest, rfl, full, pushed⟩ := @push_cases _ journal record bound within positive
  · rw [pushed]
    exact ⟨fun _ beyond => absurd room (Nat.not_lt.mpr beyond), fun _ _ => rfl⟩
  · rw [pushed, List.cons_append]
    constructor
    · intro kept _ oldest_ rest_ same
      obtain ⟨rfl, rfl⟩ := List.cons.inj same
      by_contra gone
      push Not at gone
      have absent : latest key (rest ++ [record]) (key oldest) = none := latest_eq_none.mpr gone
      have present : oldest ∈ oldest :: (rest ++ [record]) := List.mem_cons_self
      rw [kept, latest_eq_none] at absent
      exact absent oldest present rfl
    · intro spared k
      refine (latest_cons fun same => ?_).symm
      subst same
      exact spared (Nat.le_of_eq full.symm) oldest rest rfl

/-- The last word on each key is kept, or it was one that may be forgotten. -/
theorem latest_retain_append {records : List α} {forgettable : α → Prop}
    (sheds : Sheds key bound records.length k forgettable journal) (fits : records.length ≤ bound)
    (named : ∀ record ∈ records, key record = k) (some_ : records ≠ []) (other : κ) :
    latest key (retain bound (journal ++ records)) other = latest key (journal ++ records) other ∨
      latest key (retain bound (journal ++ records)) other = none ∧
        ∃ last, latest key (journal ++ records) other = some last ∧ forgettable last := by
  have within : journal.length + records.length - bound ≤ journal.length := by omega
  have kept : retain bound (journal ++ records) =
      journal.drop (journal.length + records.length - bound) ++ records := by
    rw [retain, List.length_append, List.drop_append_of_le_length within]
  cases found : latest key (retain bound (journal ++ records)) other with
  | some last => exact .inl (latest_of_suffix (List.drop_suffix _ _) found).symm
  | none =>
    rw [kept, latest_eq_none] at found
    have whole : latest key (journal ++ records) other =
        latest key (journal.take (journal.length + records.length - bound)) other := by
      conv_lhs => rw [← List.take_append_drop (journal.length + records.length - bound) journal, List.append_assoc]
      exact latest_append_others found
    rw [whole]
    cases before : latest key (journal.take (journal.length + records.length - bound)) other with
    | none => exact .inl rfl
    | some last =>
      obtain ⟨-, rfl⟩ := latest_mem before
      obtain forgotten | same | ⟨later, member, again⟩ := sheds last before
      · exact .inr ⟨rfl, last, rfl, forgotten⟩
      · obtain ⟨record, member⟩ := List.exists_mem_of_ne_nil records some_
        exact absurd ((named record member).trans same.symm) (found record (List.mem_append_right _ member))
      · exact absurd again (found later (List.mem_append_left _ member))

/-! Journals kept as the rows of one table, with a sequence number in each row. -/

section rows

variable {Row κ : Type} [DecidableEq κ] (sequence : Row → Nat) (owner : Row → κ)

/-- The rows of one journal, whatever their order. -/
def rowsOf (rows : List Row) (k : κ) : List Row := rows.filter (fun row => owner row = k)

/-- The rows of one journal by their sequence numbers. -/
def readRows (rows : List Row) (k : κ) : List Row :=
  (rowsOf owner rows k).insertionSort (fun a b => sequence a ≤ sequence b)

/-- The newest rows of one journal, the last one first. -/
def newestRows (bound : Nat) (rows : List Row) (k : κ) : List Row :=
  ((rowsOf owner rows k).insertionSort (fun a b => sequence b ≤ sequence a)).take bound

/-- Delete the rows of one journal that are not among its newest. -/
def pruneRows (bound : Nat) (rows : List Row) (k : κ) : List Row :=
  rows.filter (fun row => !(decide (owner row = k)) ||
    ((newestRows sequence owner bound rows k).map sequence).contains (sequence row))

variable {sequence owner} {rows : List Row} {row : Row} {k : κ} {bound : Nat}

/-- Rows that have been inserted one after the other. -/
def Ordered (sequence : Row → Nat) (rows : List Row) : Prop := rows.Pairwise (fun a b => sequence a < sequence b)

theorem rowsOf_ordered (ordered : Ordered sequence rows) (k : κ) : Ordered sequence (rowsOf owner rows k) :=
  List.Pairwise.sublist List.filter_sublist ordered

theorem readRows_eq (ordered : Ordered sequence rows) (k : κ) : readRows sequence owner rows k = rowsOf owner rows k :=
  ((rowsOf_ordered ordered k).imp Nat.le_of_lt).insertionSort_eq

theorem Ordered.inj (ordered : Ordered sequence rows) {a b : Row} (first : a ∈ rows) (second : b ∈ rows)
    (same : sequence a = sequence b) : a = b := by
  have distinct : (rows.map sequence).Nodup := by
    rw [List.Nodup, List.pairwise_map]
    exact ordered.imp Nat.ne_of_lt
  exact List.inj_on_of_nodup_map distinct first second same

/-- The newest rows of a journal are those it would retain. -/
theorem newestRows_eq (ordered : Ordered sequence rows) (k : κ) :
    newestRows sequence owner bound rows k = (retain bound (rowsOf owner rows k)).reverse := by
  have own : Ordered sequence (rowsOf owner rows k) := rowsOf_ordered ordered k
  have total : Std.Total (fun a b : Row => sequence b ≤ sequence a) := ⟨fun a b => Nat.le_total _ _⟩
  have trans : IsTrans Row (fun a b => sequence b ≤ sequence a) := ⟨fun _ _ _ ab bc => Nat.le_trans bc ab⟩
  have backwards : (rowsOf owner rows k).insertionSort (fun a b => sequence b ≤ sequence a) = (rowsOf owner rows k).reverse := by
    refine List.Perm.eq_of_pairwise ?_ (List.pairwise_insertionSort _ _) (List.pairwise_reverse.mpr (own.imp Nat.le_of_lt))
      ((List.perm_insertionSort _ _).trans (List.reverse_perm _).symm)
    intro a b first second above below
    exact own.inj ((List.mem_insertionSort _).mp first) (List.mem_reverse.mp second) (Nat.le_antisymm below above)
  rw [newestRows, backwards, List.take_reverse, retain]

/-- Among the rows in order, those at and after a place are told by their sequence numbers. -/
theorem filter_drop (ordered : Ordered sequence rows) (n : Nat) :
    rows.filter (fun row => ((rows.drop n).map sequence).contains (sequence row)) = rows.drop n := by
  have before : (rows.take n).filter (fun row => ((rows.drop n).map sequence).contains (sequence row)) = [] := by
    rw [List.filter_eq_nil_iff]
    intro row early listed
    obtain ⟨later, late, same⟩ := List.mem_map.mp (List.contains_iff_mem.mp listed)
    have split := ordered
    rw [← List.take_append_drop n rows] at split
    have below := (List.pairwise_append.mp split).2.2 row early later late
    omega
  have after : (rows.drop n).filter (fun row => ((rows.drop n).map sequence).contains (sequence row)) = rows.drop n := by
    rw [List.filter_eq_self]
    intro row late
    exact List.contains_iff_mem.mpr (List.mem_map_of_mem late)
  conv_lhs => enter [2]; rw [← List.take_append_drop n rows]
  rw [List.filter_append, before, after, List.nil_append]

/-- Pruning leaves of a journal what it would retain. -/
theorem rowsOf_pruneRows (ordered : Ordered sequence rows) (k : κ) :
    rowsOf owner (pruneRows sequence owner bound rows k) k = retain bound (rowsOf owner rows k) := by
  have own : Ordered sequence (rowsOf owner rows k) := rowsOf_ordered ordered k
  rw [retain, ← filter_drop own]
  rw [rowsOf, pruneRows, List.filter_filter, rowsOf, List.filter_filter, newestRows_eq ordered, retain, rowsOf]
  refine List.filter_congr fun row _ => ?_
  by_cases same : owner row = k
  · simp [same]
  · simp [same]

theorem rowsOf_pruneRows_of_ne {other : κ} (apart : other ≠ k) :
    rowsOf owner (pruneRows sequence owner bound rows k) other = rowsOf owner rows other := by
  rw [rowsOf, pruneRows, List.filter_filter, rowsOf]
  refine List.filter_congr fun row _ => ?_
  by_cases same : owner row = other
  · simp [same, apart]
  · simp [same]

theorem pruneRows_sublist : (pruneRows sequence owner bound rows k).Sublist rows := List.filter_sublist

end rows
end Coordinator.Kit.Journal
