import Mathlib.Data.List.Forall2
import Mathlib.Data.List.Infix
import Mathlib.Tactic.Common

/-! Regular expressions over any alphabet, with bounded and unbounded repetition and assertions about the
place. `Matches` says which part of a text a pattern matches between what stands before and behind it;
`ends` is the backtracking matcher, which lists the matches at one place in the order it tries them. -/

namespace Coordinator.Kit

/-- `repeats least extra` asks for `least` rounds and allows `extra` more, or any number of them. -/
inductive Regex (α : Type) where
  | empty
  | start
  | edge (word : α → Bool)
  | one (accepts : α → Bool)
  | seq (first second : Regex α)
  | alt (first second : Regex α)
  | repeats (least : Nat) (extra : Option Nat) (body : Regex α)

namespace Regex

variable {α : Type}

/-- One pattern for a list of them, in sequence. -/
def sequence (patterns : List (Regex α)) : Regex α := patterns.foldr seq empty

/-- One character of each class in turn. -/
def classes (accepted : List (α → Bool)) : Regex α := sequence (accepted.map one)

/-- The first of some patterns that leads to a match. -/
def choice (first : Regex α) : List (Regex α) → Regex α
  | [] => first
  | next :: rest => alt first (choice next rest)

def optional (body : Regex α) : Regex α := repeats 0 (some 1) body

def exactly (count : Nat) (body : Regex α) : Regex α := repeats count (some 0) body

/-- A match at a place: what stands before it (the nearest first), what it takes, and what follows. -/
abbrev Reading (α : Type) := List α → List α → List α → Prop

/-- One reading, then another where it ended. -/
def Then (first second : Reading α) : Reading α := fun before mid after =>
  ∃ left right, mid = left ++ right ∧ first before left (right ++ after) ∧ second (left.reverse ++ before) right after

def Times (reading : Reading α) : Nat → Reading α
  | 0 => fun _ mid _ => mid = []
  | count + 1 => Then reading (Times reading count)

def Matches : Regex α → Reading α
  | empty => fun _ mid _ => mid = []
  | start => fun before mid _ => mid = [] ∧ before = []
  | edge word => fun before mid after => mid = [] ∧ (before.head?.any word != after.head?.any word) = true
  | one accepts => fun _ mid _ => ∃ c, accepts c = true ∧ mid = [c]
  | seq first second => Then first.Matches second.Matches
  | alt first second => fun before mid after => first.Matches before mid after ∨ second.Matches before mid after
  | repeats least extra body => fun before mid after =>
      ∃ count, (∀ most ∈ extra, count ≤ most) ∧ Times body.Matches (least + count) before mid after

/-- What a matcher finds at a place: the parts that it can take, each with what is left behind it. -/
abbrev Matcher (α : Type) := List α → List α → List (List α × List α)

/-- Go on behind each of the parts found. -/
def chain (first second : Matcher α) : Matcher α := fun before rest =>
  (first before rest).flatMap fun found =>
    (second (found.1.reverse ++ before) found.2).map fun next => (found.1 ++ next.1, next.2)

/-- As many rounds as can be had first, and none last. -/
def upTo (body : Matcher α) : Nat → Matcher α
  | 0 => fun _ rest => [([], rest)]
  | extra + 1 => fun before rest => chain body (upTo body extra) before rest ++ [([], rest)]

def loop (body : Matcher α) (extra : Nat) : Nat → Matcher α
  | 0 => upTo body extra
  | least + 1 => chain body (loop body extra least)

def ends : Regex α → Matcher α
  | empty => fun _ rest => [([], rest)]
  | start => fun before rest => if before.isEmpty then [([], rest)] else []
  | edge word => fun before rest => if before.head?.any word != rest.head?.any word then [([], rest)] else []
  | one accepts => fun _ rest =>
      match rest with
      | [] => []
      | c :: rest => if accepts c then [([c], rest)] else []
  | seq first second => chain first.ends second.ends
  | alt first second => fun before rest => first.ends before rest ++ second.ends before rest
  -- a round that takes nothing leaves the place as it was, so what is left bounds the rounds worth trying
  | repeats least extra body => fun before rest => loop body.ends (extra.getD rest.length) least before rest

/-- Whether the pattern matches somewhere in the text. -/
def searchFrom (pattern : Regex α) (before : List α) : List α → Bool
  | [] => !(pattern.ends before []).isEmpty
  | c :: rest => !(pattern.ends before (c :: rest)).isEmpty || pattern.searchFrom (c :: before) rest

def search (pattern : Regex α) (text : List α) : Bool := pattern.searchFrom [] text

/-- The parts of the text that the pattern matches one behind the other, for a pattern that takes at least
one character. -/
def findAll (pattern : Regex α) (before rest : List α) : List (List α) :=
  match rest with
  | [] => []
  | c :: rest =>
      match (pattern.ends before (c :: rest)).head? with
      | some (d :: found, _) => (d :: found) :: pattern.findAll ((d :: found).reverse ++ before) (rest.drop found.length)
      | _ => pattern.findAll (c :: before) rest
termination_by rest.length
decreasing_by
  all_goals simp only [List.length_drop, List.length_cons]
  all_goals omega

/-- A matcher lists the matches of a reading, and nothing else. -/
def Lists (matcher : Matcher α) (reading : Reading α) : Prop := ∀ before rest mid after,
  (mid, after) ∈ matcher before rest ↔ rest = mid ++ after ∧ reading before mid after

theorem Lists.congr {matcher : Matcher α} {reading other : Reading α} (lists : Lists matcher reading)
    (same : ∀ before mid after, reading before mid after ↔ other before mid after) : Lists matcher other := by
  intro before rest mid after
  rw [lists, same]

theorem Lists.chain {first second : Matcher α} {here there : Reading α} (lists : Lists first here)
    (next : Lists second there) : Lists (chain first second) (Then here there) := by
  intro before rest mid after
  simp only [Regex.chain, List.mem_flatMap, List.mem_map, Prod.exists, Prod.mk.injEq]
  constructor
  · rintro ⟨left, behind, found, right, end_, later, rfl, rfl⟩
    obtain ⟨rfl, reads⟩ := (lists _ _ _ _).mp found
    obtain ⟨rfl, goesOn⟩ := (next _ _ _ _).mp later
    exact ⟨by rw [List.append_assoc], left, right, rfl, reads, goesOn⟩
  · rintro ⟨rfl, left, right, rfl, reads, goesOn⟩
    exact ⟨left, right ++ after, (lists _ _ _ _).mpr ⟨List.append_assoc .., reads⟩, right, after,
      (next _ _ _ _).mpr ⟨rfl, goesOn⟩, rfl, rfl⟩

theorem Lists.upTo {body : Matcher α} {reading : Reading α} (lists : Lists body reading) (extra : Nat) :
    Lists (upTo body extra) fun before mid after => ∃ count ≤ extra, Times reading count before mid after := by
  induction extra with
  | zero =>
    intro before rest mid after
    simp only [Regex.upTo, List.mem_singleton, Prod.mk.injEq, Nat.le_zero, exists_eq_left, Times]
    constructor
    · rintro ⟨rfl, rfl⟩
      exact ⟨rfl, rfl⟩
    · rintro ⟨rfl, rfl⟩
      exact ⟨rfl, rfl⟩
  | succ extra ih =>
    intro before rest mid after
    rw [Regex.upTo, List.mem_append, List.mem_singleton, lists.chain ih before rest mid after, Prod.mk.injEq]
    constructor
    · rintro (⟨split, left, right, rfl, reads, count, few, rounds⟩ | ⟨rfl, rfl⟩)
      · exact ⟨split, count + 1, by omega, left, right, rfl, reads, rounds⟩
      · exact ⟨rfl, 0, by omega, rfl⟩
    · rintro ⟨split, count, few, rounds⟩
      cases count with
      | zero =>
        obtain rfl : mid = [] := rounds
        exact .inr ⟨rfl, split.symm⟩
      | succ count =>
        obtain ⟨left, right, rfl, reads, goesOn⟩ := rounds
        exact .inl ⟨split, left, right, rfl, reads, count, by omega, goesOn⟩

theorem Lists.loop {body : Matcher α} {reading : Reading α} (lists : Lists body reading) (extra least : Nat) :
    Lists (loop body extra least) fun before mid after => ∃ count ≤ extra, Times reading (least + count) before mid after := by
  induction least with
  | zero => simpa only [Regex.loop, Nat.zero_add] using lists.upTo extra
  | succ least ih =>
    refine (lists.chain ih).congr fun before mid after => ?_
    constructor
    · rintro ⟨left, right, rfl, reads, count, few, rounds⟩
      refine ⟨count, few, ?_⟩
      rw [Nat.add_right_comm]
      exact ⟨left, right, rfl, reads, rounds⟩
    · rintro ⟨count, few, rounds⟩
      rw [Nat.add_right_comm] at rounds
      obtain ⟨left, right, rfl, reads, goesOn⟩ := rounds
      exact ⟨left, right, rfl, reads, count, few, goesOn⟩

/-- Rounds that take nothing can be left out. -/
theorem Times.shorten {reading : Reading α} {count : Nat} : ∀ {before mid after : List α}, Times reading count before mid after →
    ∃ fewer ≤ mid.length, Times reading fewer before mid after := by
  induction count with
  | zero =>
    intro before mid after rounds
    exact ⟨0, Nat.zero_le _, rounds⟩
  | succ count ih =>
    rintro before mid after ⟨left, right, rfl, reads, goesOn⟩
    obtain ⟨fewer, few, rounds⟩ := ih goesOn
    cases left with
    | nil => exact ⟨fewer, few, rounds⟩
    | cons c left =>
      refine ⟨fewer + 1, ?_, c :: left, right, rfl, reads, rounds⟩
      rw [List.length_append, List.length_cons]
      omega

theorem Times.shorten_extra {reading : Reading α} {least count : Nat} : ∀ {before mid after : List α},
    Times reading (least + count) before mid after → ∃ fewer ≤ mid.length, Times reading (least + fewer) before mid after := by
  induction least with
  | zero =>
    intro before mid after rounds
    simp only [Nat.zero_add] at rounds ⊢
    exact rounds.shorten
  | succ least ih =>
    intro before mid after rounds
    rw [Nat.add_right_comm] at rounds
    obtain ⟨left, right, rfl, reads, goesOn⟩ := rounds
    obtain ⟨fewer, few, rounds⟩ := ih goesOn
    refine ⟨fewer, ?_, ?_⟩
    · rw [List.length_append]
      omega
    · rw [Nat.add_right_comm]
      exact ⟨left, right, rfl, reads, rounds⟩

/-- The backtracking matcher lists the matches of the pattern. -/
theorem ends_lists (pattern : Regex α) : Lists pattern.ends pattern.Matches := by
  induction pattern with
  | empty =>
    intro before rest mid after
    simp only [ends, Matches, List.mem_singleton, Prod.mk.injEq]
    constructor
    · rintro ⟨rfl, rfl⟩
      exact ⟨rfl, rfl⟩
    · rintro ⟨rfl, rfl⟩
      exact ⟨rfl, rfl⟩
  | start =>
    intro before rest mid after
    simp only [ends, Matches, List.isEmpty_iff, List.mem_ite_nil_right, List.mem_singleton, Prod.mk.injEq]
    constructor
    · rintro ⟨first, rfl, rfl⟩
      exact ⟨rfl, rfl, first⟩
    · rintro ⟨rfl, rfl, first⟩
      exact ⟨first, rfl, rfl⟩
  | edge word =>
    intro before rest mid after
    simp only [ends, Matches, List.mem_ite_nil_right, List.mem_singleton, Prod.mk.injEq]
    constructor
    · rintro ⟨differs, rfl, rfl⟩
      exact ⟨rfl, rfl, differs⟩
    · rintro ⟨rfl, rfl, differs⟩
      exact ⟨differs, rfl, rfl⟩
  | one accepts =>
    intro before rest mid after
    cases rest with
    | nil =>
      simp only [ends, Matches, List.not_mem_nil, false_iff]
      rintro ⟨split, c, -, rfl⟩
      cases split
    | cons c rest =>
      simp only [ends, Matches, List.mem_ite_nil_right, List.mem_singleton, Prod.mk.injEq]
      constructor
      · rintro ⟨accepted, rfl, rfl⟩
        exact ⟨rfl, c, accepted, rfl⟩
      · rintro ⟨split, d, accepted, rfl⟩
        obtain ⟨rfl, rfl⟩ := List.cons.inj split
        exact ⟨accepted, rfl, rfl⟩
  | seq first second here there => exact here.chain there
  | alt first second here there =>
    intro before rest mid after
    rw [ends, List.mem_append, here, there, ← and_or_left]
    rfl
  | repeats least extra body lists =>
    intro before rest mid after
    rw [ends, lists.loop _ _ before rest mid after]
    refine and_congr_right fun split => ?_
    subst split
    cases extra with
    | some most => simp only [Matches, Option.getD_some, Option.mem_some_iff, forall_eq']
    | none =>
      simp only [Matches, Option.getD_none, Option.mem_def, reduceCtorEq, false_imp_iff, implies_true, true_and]
      constructor
      · rintro ⟨count, -, rounds⟩
        exact ⟨count, rounds⟩
      · rintro ⟨count, rounds⟩
        obtain ⟨fewer, few, rounds⟩ := rounds.shorten_extra
        exact ⟨fewer, by rw [List.length_append]; omega, rounds⟩

theorem ends_isEmpty (pattern : Regex α) (before rest : List α) :
    (!(pattern.ends before rest).isEmpty) = true ↔ ∃ mid after, rest = mid ++ after ∧ pattern.Matches before mid after := by
  rw [Bool.not_eq_true', ← Bool.not_eq_true, List.isEmpty_iff]
  constructor
  · intro found
    obtain ⟨⟨mid, after⟩, member⟩ := List.exists_mem_of_ne_nil _ found
    exact ⟨mid, after, (ends_lists pattern _ _ _ _).mp member⟩
  · rintro ⟨mid, after, here⟩ none
    have member := (ends_lists pattern _ _ _ _).mpr here
    rw [none] at member
    cases member

theorem searchFrom_iff (pattern : Regex α) (before rest : List α) : pattern.searchFrom before rest = true ↔
    ∃ lead mid after, rest = lead ++ mid ++ after ∧ pattern.Matches (lead.reverse ++ before) mid after := by
  induction rest generalizing before with
  | nil =>
    rw [searchFrom, ends_isEmpty]
    constructor
    · rintro ⟨mid, after, split, here⟩
      exact ⟨[], mid, after, split, here⟩
    · rintro ⟨lead, mid, after, split, here⟩
      obtain rfl : lead = [] := by simp_all
      exact ⟨mid, after, split, here⟩
  | cons c rest ih =>
    rw [searchFrom, Bool.or_eq_true, ends_isEmpty, ih]
    constructor
    · rintro (⟨mid, after, split, here⟩ | ⟨lead, mid, after, rfl, later⟩)
      · exact ⟨[], mid, after, split, here⟩
      · exact ⟨c :: lead, mid, after, rfl, by simpa using later⟩
    · rintro ⟨lead, mid, after, split, here⟩
      cases lead with
      | nil => exact .inl ⟨mid, after, split, here⟩
      | cons d lead =>
        obtain ⟨rfl, rfl⟩ := List.cons.inj split
        exact .inr ⟨lead, mid, after, rfl, by simpa using here⟩

/-- A search succeeds where some part of the text is a match. -/
theorem search_iff (pattern : Regex α) (text : List α) : pattern.search text = true ↔
    ∃ lead mid after, text = lead ++ mid ++ after ∧ pattern.Matches lead.reverse mid after := by
  rw [search, searchFrom_iff]
  simp only [List.append_nil]

/-- The pattern takes at least one character. -/
def Consumes (pattern : Regex α) : Prop := ∀ before after, ¬pattern.Matches before [] after

/-- Nothing is listed where the search fails, and something where it succeeds. -/
theorem findAll_eq_nil {pattern : Regex α} (consumes : pattern.Consumes) (before rest : List α) :
    pattern.findAll before rest = [] ↔ pattern.searchFrom before rest = false := by
  induction rest generalizing before with
  | nil =>
    rw [findAll, searchFrom, ← Bool.not_eq_true, ends_isEmpty]
    refine iff_of_true rfl ?_
    rintro ⟨mid, after, split, here⟩
    obtain ⟨rfl, rfl⟩ := List.append_eq_nil_iff.mp split.symm
    exact consumes _ _ here
  | cons c rest ih =>
    rw [findAll, searchFrom, Bool.or_eq_false_iff, ← ih]
    cases found : pattern.ends before (c :: rest) with
    | nil => simp
    | cons first others =>
      obtain ⟨mid, after⟩ := first
      have here := (ends_lists pattern _ _ _ _).mp (by rw [found]; exact List.mem_cons_self)
      cases mid with
      | nil => exact absurd here.2 (consumes _ _)
      | cons d mid => simp

/-! What the matches of the common shapes consist of. -/

/-- Each pattern of a sequence matches a part of what the sequence matches. -/
theorem matches_sequence_part {pattern : Regex α} {patterns : List (Regex α)} (member : pattern ∈ patterns) :
    ∀ {before mid after : List α}, (sequence patterns).Matches before mid after →
      ∃ lead part rest, part <:+: mid ∧ pattern.Matches lead part rest := by
  induction patterns with
  | nil => cases member
  | cons first patterns ih =>
    rintro before mid after ⟨left, right, rfl, here, later⟩
    rcases List.mem_cons.mp member with rfl | member
    · exact ⟨_, left, _, (List.prefix_append _ _).isInfix, here⟩
    · obtain ⟨lead, part, rest, inside, found⟩ := ih member later
      exact ⟨lead, part, rest, inside.trans (List.suffix_append _ _).isInfix, found⟩

theorem matches_classes {accepted : List (α → Bool)} : ∀ {before mid after : List α}, (classes accepted).Matches before mid after ↔
    List.Forall₂ (fun accepts c => accepts c = true) accepted mid := by
  induction accepted with
  | nil =>
    intro before mid after
    rw [List.forall₂_nil_left_iff]
    rfl
  | cons accepts rest ih =>
    intro before mid after
    change (∃ left right, mid = left ++ right ∧ (∃ c, accepts c = true ∧ left = [c]) ∧ (classes rest).Matches _ right after) ↔ _
    constructor
    · rintro ⟨left, right, rfl, ⟨c, accepted, rfl⟩, later⟩
      exact .cons accepted (ih.mp later)
    · intro all
      cases all with
      | cons accepted later => exact ⟨[_], _, rfl, ⟨_, accepted, rfl⟩, ih.mpr later⟩

theorem matches_times_one {accepts : α → Bool} {count : Nat} : ∀ {before mid after : List α},
    Times (one accepts).Matches count before mid after ↔ mid.length = count ∧ mid.all accepts = true := by
  induction count with
  | zero =>
    intro before mid after
    change mid = [] ↔ _
    constructor
    · rintro rfl
      exact ⟨rfl, rfl⟩
    · rintro ⟨none, -⟩
      exact List.length_eq_zero_iff.mp none
  | succ count ih =>
    intro before mid after
    constructor
    · rintro ⟨left, right, rfl, ⟨c, accepted, rfl⟩, later⟩
      obtain ⟨long, all⟩ := ih.mp later
      simp [long, all, accepted]
    · rintro ⟨long, all⟩
      cases mid with
      | nil => cases long
      | cons c mid =>
        rw [List.all_cons, Bool.and_eq_true] at all
        exact ⟨[c], mid, rfl, ⟨c, all.1, rfl⟩, ih.mpr ⟨Nat.succ.inj long, all.2⟩⟩

/-- A class repeated a fixed number of times. -/
theorem matches_exactly_one {accepts : α → Bool} {count : Nat} {before mid after : List α} :
    (exactly count (one accepts)).Matches before mid after ↔ mid.length = count ∧ mid.all accepts = true := by
  have times : Times (one accepts).Matches count before mid after ↔ mid.length = count ∧ mid.all accepts = true := matches_times_one
  rw [← times]
  simp [exactly, Matches]

theorem matches_choice {first : Regex α} {others : List (Regex α)} {before mid after : List α} :
    (choice first others).Matches before mid after ↔ ∃ pattern ∈ first :: others, pattern.Matches before mid after := by
  induction others generalizing first with
  | nil => simp [choice]
  | cons next rest ih =>
    change first.Matches before mid after ∨ (choice next rest).Matches before mid after ↔ _
    rw [ih]
    simp only [List.mem_cons, exists_eq_or_imp]

/-- What an optional pattern takes is a match of it, or nothing. -/
theorem matches_optional {body : Regex α} {before mid after : List α} : (optional body).Matches before mid after ↔
    mid = [] ∨ body.Matches before mid after := by
  constructor
  · rintro ⟨count, few, rounds⟩
    have := few 1 rfl
    obtain rfl | rfl : count = 0 ∨ count = 1 := by omega
    · exact .inl rounds
    · obtain ⟨left, right, rfl, here, none⟩ := rounds
      obtain rfl : right = [] := none
      right
      simpa using here
  · rintro (rfl | here)
    · exact ⟨0, by simp, rfl⟩
    · refine ⟨1, by simp, mid, [], (List.append_nil mid).symm, ?_, rfl⟩
      simpa using here

end Regex

end Coordinator.Kit
