import Coordinator.Kit.Text

/-! The parts of relative paths: how they compose at a slash and which of them a textual prefix shares. -/

namespace Coordinator.Kit.Text

variable {s t lead rest : String}

theorem hasPrefix_iff : hasPrefix lead s = true ↔ lead.toList <+: s.toList := by
  rw [hasPrefix, characters_eq, characters_eq]
  constructor
  · intro found
    obtain ⟨after, stripped⟩ := Option.isSome_iff_exists.mp found
    exact ⟨after, (stripPrefix?_eq_some.mp stripped).symm⟩
  · rintro ⟨after, split⟩
    rw [← split, stripPrefix?_append]
    rfl

/-- The parts of two texts joined by a slash are those of the first and those of the second. -/
theorem pathParts_slash (joined : t.toList = s.toList ++ '/' :: rest.toList) : pathParts t = pathParts s ++ pathParts rest := by
  rw [pathParts, pathParts, pathParts, splitOn, splitOn, splitOn, joined, List.splitOn_append_cons_self, List.map_append,
    List.filter_append]

theorem pathParts_empty : pathParts "" = [] := by decide

/-- A text without the slashes at its end. -/
def trimmed (s : String) : String := String.ofList (s.toList.reverse.dropWhile (· = '/')).reverse

theorem trimmed_append (s : String) : ∃ count, s.toList = (trimmed s).toList ++ List.replicate count '/' := by
  have split := List.takeWhile_append_dropWhile (p := fun c => decide (c = '/')) (l := s.toList.reverse)
  refine ⟨(s.toList.reverse.takeWhile (fun c => decide (c = '/'))).length, ?_⟩
  have slashes : s.toList.reverse.takeWhile (fun c => decide (c = '/')) =
      List.replicate (s.toList.reverse.takeWhile (fun c => decide (c = '/'))).length '/' :=
    List.eq_replicate_of_mem fun c member => by
      simpa using List.all_eq_true.mp List.all_takeWhile c member
  rw [trimmed, String.toList_ofList, ← List.reverse_replicate, ← slashes, ← List.reverse_append, split, List.reverse_reverse]

theorem pathParts_replicate {count : Nat} : ∀ {s t : String}, t.toList = s.toList ++ List.replicate count '/' →
    pathParts t = pathParts s := by
  induction count with
  | zero =>
    intro s t same
    rw [List.replicate_zero, List.append_nil] at same
    rw [String.toList_inj.mp same]
  | succ count ih =>
    intro s t same
    have slash : t.toList = (String.ofList (s.toList ++ List.replicate count '/')).toList ++ '/' :: "".toList := by
      rw [same, String.toList_ofList, List.replicate_succ', ← List.append_assoc]
      rfl
    rw [pathParts_slash slash, pathParts_empty, List.append_nil]
    exact ih (String.toList_ofList)

theorem pathParts_trimmed (s : String) : pathParts (trimmed s) = pathParts s := by
  obtain ⟨count, same⟩ := trimmed_append s
  exact (pathParts_replicate same).symm

/-- A text is its trimmed form or lies behind it and a slash. -/
theorem trimmed_covers (s : String) : s = trimmed s ∨ hasPrefix (trimmed s ++ "/") s = true := by
  obtain ⟨count, same⟩ := trimmed_append s
  cases count with
  | zero =>
    rw [List.replicate_zero, List.append_nil] at same
    exact .inl (String.toList_inj.mp same)
  | succ count =>
    refine .inr (hasPrefix_iff.mpr ⟨List.replicate count '/', ?_⟩)
    rw [same, String.toList_append, List.replicate_succ, List.append_assoc]
    rfl

/-- A component holds elements of the list, but not the one that it is split at. -/
theorem mem_splitOn {α : Type} [BEq α] [LawfulBEq α] {separator : α} {cs : List α} :
    ∀ component ∈ cs.splitOn separator, separator ∉ component ∧ component ⊆ cs := by
  induction cs with
  | nil =>
    intro component member
    rw [List.splitOn_nil, List.mem_singleton] at member
    rw [member]
    exact ⟨List.not_mem_nil, List.nil_subset _⟩
  | cons c cs ih =>
    intro component member
    rw [List.splitOn_cons_eq_if_modifyHead] at member
    by_cases here : (c == separator) = true
    · rw [if_pos here, List.mem_cons] at member
      obtain rfl | later := member
      · exact ⟨List.not_mem_nil, List.nil_subset _⟩
      · exact ⟨(ih component later).1, List.subset_cons_of_subset c (ih component later).2⟩
    · rw [if_neg here] at member
      cases components : cs.splitOn separator with
      | nil => exact absurd components (List.splitOn_ne_nil separator cs)
      | cons first others =>
        rw [components] at member ih
        rw [List.modifyHead_cons, List.mem_cons] at member
        obtain rfl | later := member
        · have kept := ih first List.mem_cons_self
          rw [List.mem_cons, not_or]
          exact ⟨⟨fun same => here (by rw [same, beq_self_eq_true]), kept.1⟩, List.cons_subset_cons c kept.2⟩
        · have kept := ih component (List.mem_cons_of_mem first later)
          exact ⟨kept.1, List.subset_cons_of_subset c kept.2⟩

theorem mem_pathParts {s part : String} : part ∈ pathParts s ↔ part ∈ splitOn '/' s ∧ part ≠ "" ∧ part ≠ "." := by
  rw [pathParts, List.mem_filter]
  simp

/-- The characters of a part come from the text. -/
theorem subset_of_mem_pathParts {part : String} (member : part ∈ pathParts s) : part.toList ⊆ s.toList := by
  obtain ⟨cs, split, rfl⟩ := List.mem_map.mp (mem_pathParts.mp member).1
  rw [String.toList_ofList]
  exact (mem_splitOn cs split).2

/-- A text that starts with another character than a slash or a dot has a first part that starts with it. -/
theorem pathParts_cons {c : Char} {cs : List Char} (spelled : s.toList = c :: cs) (slash : c ≠ '/') (dot : c ≠ '.') :
    ∃ first rest, pathParts s = first :: rest ∧ first.toList.head? = some c := by
  cases components : cs.splitOn '/' with
  | nil => exact absurd components (List.splitOn_ne_nil '/' cs)
  | cons first others =>
    have split : splitOn '/' s = String.ofList (c :: first) :: others.map String.ofList := by
      rw [splitOn, spelled, List.splitOn_cons_eq_if_modifyHead, if_neg (by simpa using slash), components,
        List.modifyHead_cons, List.map_cons]
    refine ⟨String.ofList (c :: first), (others.map String.ofList).filter (fun part => part ≠ "" && part ≠ "."), ?_, by simp⟩
    have named : String.ofList (c :: first) ≠ "" ∧ String.ofList (c :: first) ≠ "." := by
      constructor <;> intro same <;> have letters := congrArg String.toList same <;> simp [dot] at letters
    rw [pathParts, split, List.filter_cons_of_pos (by simpa using named)]

/-- Some text is what its parts spell exactly when splitting it gives no component that vanishes. -/
theorem joined_pathParts (filled : s ≠ "") :
    joined "/" (pathParts s) = s ↔ ∀ part ∈ splitOn '/' s, part ≠ "" ∧ part ≠ "." := by
  constructor
  · intro spelled part member
    have some_ : pathParts s ≠ [] := fun none_ => by
      rw [none_] at spelled
      exact filled spelled.symm
    have free : ∀ component ∈ (pathParts s).map String.toList, '/' ∉ component := by
      intro component found
      obtain ⟨kept, listed, rfl⟩ := List.mem_map.mp found
      obtain ⟨cs, split, rfl⟩ := List.mem_map.mp (mem_pathParts.mp listed).1
      rw [String.toList_ofList]
      exact (mem_splitOn cs split).1
    have same : splitOn '/' s = pathParts s := by
      have letters := congrArg String.toList spelled
      rw [joined, String.toList_intercalate] at letters
      rw [splitOn, ← letters, show "/".toList = ['/'] from rfl,
        List.splitOn_intercalate '/' free (by simpa using some_), List.map_map]
      simp [Function.comp_def]
    rw [same] at member
    exact (mem_pathParts.mp member).2
  · intro plain
    have same : pathParts s = splitOn '/' s := List.filter_eq_self.mpr fun part member => by simpa using plain part member
    apply String.toList_inj.mp
    rw [same, joined, String.toList_intercalate, splitOn, List.map_map]
    simp [Function.comp_def, List.intercalate_splitOn]

/-- A list cannot have one mark before the other and the other before the one. -/
theorem mark_mem_of_two {α : Type} {mark other : α} {xs ys zs ws : List α} (differ : mark ≠ other)
    (same : xs ++ mark :: ys = zs ++ other :: ws) (free : other ∉ xs) : mark ∈ zs := by
  obtain ⟨middle, rfl, rest⟩ | ⟨middle, rfl, rest⟩ := List.append_eq_append_iff.mp same
  · cases middle with
    | nil => exact absurd (List.cons.inj rest).1 differ
    | cons c middle =>
      rw [(List.cons.inj rest).1]
      simp
  · cases middle with
    | nil => exact absurd (List.cons.inj rest).1.symm differ
    | cons c middle =>
      rw [← (List.cons.inj rest).1] at free
      simp at free

/-- Short of their last elements, too, a list starts with the other. -/
theorem dropLast_of_prefix {α : Type} {xs ys : List α} (before : xs <+: ys) : xs.dropLast <+: ys.dropLast := by
  obtain ⟨rest, rfl⟩ := before
  by_cases none_ : rest = []
  · rw [none_, List.append_nil]
  · rw [List.dropLast_append_of_ne_nil none_]
    exact (List.dropLast_prefix xs).trans (List.prefix_append _ _)

/-- What follows a text behind a slash only adds parts. -/
theorem pathParts_grown {more : List Char} (same : t.toList = s.toList ++ more) (joint : more = [] ∨ ∃ rest, more = '/' :: rest) :
    pathParts s <+: pathParts t := by
  obtain rfl | ⟨rest, rfl⟩ := joint
  · rw [List.append_nil] at same
    rw [String.toList_inj.mp same]
  · have slash : t.toList = s.toList ++ '/' :: (String.ofList rest).toList := by rw [same, String.toList_ofList]
    rw [pathParts_slash slash]
    exact List.prefix_append _ _

end Coordinator.Kit.Text
