import Mathlib.Data.List.Basic
import Mathlib.Tactic.Common

/-! Text files by path, and the snapshots that put them back. A file is read with its line ends
made uniform, so what a snapshot puts back is the text that was read. -/

namespace Coordinator.Kit

/-- Line ends as a program reads them from a text file. -/
def uniformLines : List Char → List Char
  | [] => []
  | '\r' :: '\n' :: rest => '\n' :: uniformLines rest
  | '\r' :: rest => '\n' :: uniformLines rest
  | c :: rest => c :: uniformLines rest

/-- A text as it is read back from a file. -/
def readBack (text : String) : String := String.ofList (uniformLines text.toList)

theorem uniformLines_no_return (cs : List Char) : '\r' ∉ uniformLines cs := by
  fun_induction uniformLines cs with
  | case1 => simp
  | case2 rest ih => simpa using ih
  | case3 rest _ ih => simpa using ih
  | case4 c rest _ other ih =>
    rw [List.mem_cons, not_or]
    exact ⟨fun same => other same.symm, ih⟩

theorem uniformLines_of_no_return {cs : List Char} (plain : '\r' ∉ cs) : uniformLines cs = cs := by
  fun_induction uniformLines cs with
  | case1 => rfl
  | case2 rest ih => simp at plain
  | case3 rest _ ih => simp at plain
  | case4 c rest _ other ih =>
    rw [List.mem_cons, not_or] at plain
    rw [ih plain.2]

@[simp] theorem readBack_readBack (text : String) : readBack (readBack text) = readBack text := by
  rw [readBack, readBack, String.toList_ofList, uniformLines_of_no_return (uniformLines_no_return _)]

/-- Only line ends change when a text is read back. -/
theorem count_readBack {c : Char} (notReturn : c ≠ '\r') (notFeed : c ≠ '\n') (text : String) :
    (readBack text).toList.count c = text.toList.count c := by
  rw [readBack, String.toList_ofList]
  generalize text.toList = cs
  fun_induction uniformLines cs with
  | case1 => rfl
  | case2 rest ih => simp [ih, Ne.symm notReturn, Ne.symm notFeed]
  | case3 rest _ ih => simp [ih, Ne.symm notReturn, Ne.symm notFeed]
  | case4 first rest _ _ ih => rw [List.count_cons, List.count_cons, ih]

abbrev FileTree (Path : Type) := List (Path × String)

namespace FileTree

variable {Path : Type} [DecidableEq Path]

def read (tree : FileTree Path) (path : Path) : Option String :=
  (tree.find? (fun entry => entry.1 = path)).map Prod.snd

def unlink (tree : FileTree Path) (path : Path) : FileTree Path := tree.filter (fun entry => entry.1 ≠ path)

def write (tree : FileTree Path) (path : Path) (text : String) : FileTree Path := (path, text) :: tree.unlink path

/-- Leave a file with a content, or without one. -/
def put (tree : FileTree Path) (path : Path) : Option String → FileTree Path
  | some text => tree.write path text
  | none => tree.unlink path

def paths (tree : FileTree Path) : List Path := tree.map Prod.fst

def readText (tree : FileTree Path) (path : Path) : Option String := (tree.read path).map readBack

/-- The contents of some files; the first entry of a path counts. -/
abbrev Snapshot (Path : Type) := List (Path × Option String)

def snapshot (tree : FileTree Path) (paths : List Path) : Snapshot Path := paths.map (fun path => (path, tree.readText path))

/-- Put every file of a snapshot back. -/
def restore (tree : FileTree Path) (before : Snapshot Path) : FileTree Path :=
  before.foldr (fun entry tree => tree.put entry.1 entry.2) tree

theorem read_unlink (tree : FileTree Path) (path other : Path) :
    (tree.unlink path).read other = if other = path then none else tree.read other := by
  rw [read, unlink, List.find?_filter]
  by_cases same : other = path
  · subst same
    simp
  · rw [if_neg same, read]
    congr 2
    funext entry
    by_cases here : entry.1 = other
    · simp [here, same]
    · simp [here]

theorem read_write (tree : FileTree Path) (path other : Path) (text : String) :
    (tree.write path text).read other = if other = path then some text else tree.read other := by
  by_cases same : other = path
  · subst same
    simp [read, write]
  · have kept := tree.read_unlink path other
    rw [if_neg same] at kept ⊢
    rw [← kept, write, read, List.find?_cons_of_neg (by simpa using Ne.symm same)]
    rfl

theorem read_put (tree : FileTree Path) (path other : Path) (content : Option String) :
    (tree.put path content).read other = if other = path then content else tree.read other := by
  cases content with
  | none => exact tree.read_unlink path other
  | some text => exact tree.read_write path other text

/-- A restored file has the content of its first entry, a file outside the snapshot its own. -/
theorem read_restore (tree : FileTree Path) (before : Snapshot Path) (path : Path) :
    (tree.restore before).read path =
      match before.find? (fun entry => entry.1 = path) with
      | some entry => entry.2
      | none => tree.read path := by
  induction before with
  | nil => rfl
  | cons entry rest ih =>
    change ((restore tree rest).put entry.1 entry.2).read path = _
    rw [read_put]
    by_cases same : path = entry.1
    · rw [if_pos same, List.find?_cons_of_pos (by simpa using same.symm)]
    · rw [if_neg same, ih, List.find?_cons_of_neg (by simpa using Ne.symm same)]

theorem find_snapshot (tree : FileTree Path) (paths : List Path) (path : Path) :
    (tree.snapshot paths).find? (fun entry => entry.1 = path) =
      if path ∈ paths then some (path, tree.readText path) else none := by
  cases found : (tree.snapshot paths).find? (fun entry => entry.1 = path) with
  | none =>
    rw [if_neg]
    intro member
    have absent := List.find?_eq_none.mp found _ (List.mem_map_of_mem member)
    simp at absent
  | some entry =>
    have named : entry.1 = path := by simpa using List.find?_some found
    obtain ⟨other, member, rfl⟩ := List.mem_map.mp (List.mem_of_find?_eq_some found)
    subst named
    rw [if_pos member]

/-- A snapshot puts the text of its files back, and what comes after it puts back the others. -/
theorem read_restore_snapshot (tree now : FileTree Path) (paths : List Path) (rest : Snapshot Path) (path : Path) :
    (now.restore (tree.snapshot paths ++ rest)).read path =
      if path ∈ paths then tree.readText path else (now.restore rest).read path := by
  rw [read_restore, List.find?_append, find_snapshot, read_restore]
  by_cases member : path ∈ paths
  · rw [if_pos member, if_pos member]
    rfl
  · rw [if_neg member, if_neg member]
    rfl

end FileTree

end Coordinator.Kit
