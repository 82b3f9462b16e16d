import Mathlib.Order.WellFounded
import Mathlib.Data.List.Nodup
import Mathlib.Logic.Function.Basic

/-! Scopes of exclusive locks. A process takes the locks of its scope one after the other, runs its body under all of them, and
gives them back the other way round, or dies and loses them at once. -/

namespace Coordinator.Kit

/-- How far a process is in a scope. The locks that it needs come in their order. -/
structure Scope (Lock : Type) [LT Lock] where
  needs : List Lock
  taken : Nat := 0
  leaving : Bool := false
  ordered : needs.Pairwise (· < ·)

namespace Scope

variable {Lock : Type} [LinearOrder Lock] (scope : Scope Lock)

def held : List Lock := scope.needs.take scope.taken

/-- The process runs its body: it has every lock and has given none back. -/
def Inside : Prop := scope.needs.length ≤ scope.taken ∧ scope.leaving = false

/-- The lock that the process waits for. -/
def next? : Option Lock := if scope.leaving then none else scope.needs[scope.taken]?

def advanced : Scope Lock := { scope with taken := scope.taken + 1 }

def retired : Scope Lock := { scope with taken := scope.taken - 1, leaving := true }

variable {scope} {lock : Lock}

theorem held_of_inside (inside : scope.Inside) : scope.held = scope.needs := List.take_of_length_le inside.1

theorem next_eq_some (waits : scope.next? = some lock) : scope.leaving = false ∧ scope.needs[scope.taken]? = some lock := by
  unfold next? at waits
  split at waits
  · cases waits
  · next stays => exact ⟨Bool.not_eq_true _ ▸ stays, waits⟩

theorem held_advanced (waits : scope.next? = some lock) : scope.advanced.held = scope.held ++ [lock] := by
  obtain ⟨-, found⟩ := next_eq_some waits
  rw [held, advanced, held, List.take_add_one, found]
  rfl

/-- A process has only locks before the one that it waits for. -/
theorem held_lt_next {other : Lock} (waits : scope.next? = some lock) (held : other ∈ scope.held) : other < lock := by
  obtain ⟨-, found⟩ := next_eq_some waits
  obtain ⟨index, within, rfl⟩ := List.mem_take_iff_getElem.mp held
  obtain ⟨bound, rfl⟩ := List.getElem?_eq_some_iff.mp found
  exact List.pairwise_iff_getElem.mp scope.ordered index scope.taken (by omega) bound (by omega)

/-- What is left after giving a lock back is apart from that lock. -/
theorem held_retired {count : Nat} (taken : scope.taken = count + 1) (lost : lock ∈ scope.retired.held) :
    lock ∈ scope.held ∧ scope.needs[count]? ≠ some lock := by
  have kept : scope.retired.held = scope.needs.take count := by
    rw [held, retired, taken]
    rfl
  rw [kept] at lost
  refine ⟨?_, fun found => ?_⟩
  · rw [held, taken]
    exact List.take_subset_take_left scope.needs (Nat.le_succ count) lost
  · obtain ⟨index, within, same⟩ := List.mem_take_iff_getElem.mp lost
    obtain ⟨bound, here⟩ := List.getElem?_eq_some_iff.mp found
    have apart := List.pairwise_iff_getElem.mp scope.ordered index count (by omega) bound (by omega)
    rw [same, here] at apart
    exact lt_irrefl lock apart

end Scope

/-- The owner of each lock, and the scope of each process that is in one. -/
structure Locks (Lock : Type) [LT Lock] where
  owner : Lock → Option Nat
  scope : Nat → Option (Scope Lock)

namespace Locks

variable {Lock : Type} [LinearOrder Lock] (locks : Locks Lock)

def free : Locks Lock := ⟨fun _ => none, fun _ => none⟩

def enter (pid : Nat) (needs : List Lock) (ordered : needs.Pairwise (· < ·)) : Locks Lock :=
  { locks with scope := Function.update locks.scope pid (some { needs, ordered }) }

/-- Take the next lock, where nobody has it. -/
def take (pid : Nat) : Locks Lock :=
  match locks.scope pid with
  | none => locks
  | some scope =>
      match scope.next? with
      | none => locks
      | some lock =>
          if locks.owner lock = none then
            ⟨Function.update locks.owner lock (some pid), Function.update locks.scope pid (some scope.advanced)⟩
          else locks

/-- Give the last lock back, and leave the scope after the first one. -/
def leave (pid : Nat) : Locks Lock :=
  match locks.scope pid with
  | none => locks
  | some scope =>
      match scope.taken with
      | 0 => { locks with scope := Function.update locks.scope pid none }
      | count + 1 =>
          ⟨fun lock => if scope.needs[count]? = some lock then none else locks.owner lock,
            Function.update locks.scope pid (some scope.retired)⟩

def die (pid : Nat) : Locks Lock :=
  ⟨fun lock => if locks.owner lock = some pid then none else locks.owner lock, Function.update locks.scope pid none⟩

/-- The locks of a process are those that its scope has taken. -/
structure Owned : Prop where
  held : ∀ pid scope lock, locks.scope pid = some scope → lock ∈ scope.held → locks.owner lock = some pid
  entered : ∀ pid lock, locks.owner lock = some pid → ∃ scope, locks.scope pid = some scope ∧ lock ∈ scope.held

theorem free_owned : (free : Locks Lock).Owned where
  held pid scope lock entered _ := by cases entered
  entered pid lock owned := by cases owned

section owned

variable {locks} {pid other : Nat} {scope second : Scope Lock} {lock : Lock}

/-- A lock has one owner. -/
theorem Owned.exclusive (owned : locks.Owned) (first : locks.scope pid = some scope) (also : locks.scope other = some second)
    (held : lock ∈ scope.held) (shared : lock ∈ second.held) : pid = other :=
  Option.some.inj ((owned.held pid scope lock first held).symm.trans (owned.held other second lock also shared))

theorem Owned.enter (owned : locks.Owned) (outside : locks.scope pid = none) (needs : List Lock) (ordered : needs.Pairwise (· < ·)) :
    (locks.enter pid needs ordered).Owned := by
  refine ⟨fun other found lock entered held => ?_, fun other lock owns => ?_⟩
  · simp only [Locks.enter, Function.update_apply] at entered
    split at entered
    · cases entered
      simp [Scope.held] at held
    · exact owned.held other found lock entered held
  · obtain ⟨scope, entered, held⟩ := owned.entered other lock owns
    have apart : other ≠ pid := by
      rintro rfl
      rw [outside] at entered
      cases entered
    exact ⟨scope, (Function.update_of_ne apart _ _).trans entered, held⟩

theorem Owned.take (owned : locks.Owned) (pid : Nat) : (locks.take pid).Owned := by
  unfold Locks.take
  split
  · exact owned
  · next scope entered =>
    split
    · exact owned
    · next lock waits =>
      split
      · next unowned =>
        have grown := Scope.held_advanced waits
        refine ⟨fun other found wanted at_ held => ?_, fun other wanted owns => ?_⟩
        · simp only [Function.update_apply] at at_ ⊢
          split at at_
          · next here =>
            cases at_
            rw [grown, List.mem_append, List.mem_singleton] at held
            obtain old | rfl := held
            · have owns := owned.held pid scope wanted entered old
              rw [if_neg, owns, here]
              rintro rfl
              rw [unowned] at owns
              cases owns
            · rw [if_pos rfl, here]
          · next apart =>
            have owns := owned.held other found wanted at_ held
            rw [if_neg, owns]
            rintro rfl
            rw [unowned] at owns
            cases owns
        · simp only [Function.update_apply] at owns ⊢
          split at owns
          · next same =>
            cases owns
            exact ⟨scope.advanced, if_pos rfl, by simp [grown, same]⟩
          · obtain ⟨found, at_, held⟩ := owned.entered other wanted owns
            by_cases here : other = pid
            · subst here
              cases entered.symm.trans at_
              exact ⟨scope.advanced, if_pos rfl, by simp [grown, held]⟩
            · exact ⟨found, by rw [if_neg here, at_], held⟩
      · exact owned

theorem Owned.leave (owned : locks.Owned) (pid : Nat) : (locks.leave pid).Owned := by
  unfold Locks.leave
  split
  · exact owned
  · next scope entered =>
    split
    · next none_ =>
      refine ⟨fun other found lock at_ held => ?_, fun other lock owns => ?_⟩
      · simp only [Function.update_apply] at at_
        split at at_
        · cases at_
        · exact owned.held other found lock at_ held
      · obtain ⟨found, at_, held⟩ := owned.entered other lock owns
        have apart : other ≠ pid := by
          rintro rfl
          cases entered.symm.trans at_
          simp [Scope.held, none_] at held
        exact ⟨found, (Function.update_of_ne apart _ _).trans at_, held⟩
    · next count taken =>
      refine ⟨fun other found lock at_ held => ?_, fun other lock owns => ?_⟩
      · simp only [Function.update_apply] at at_
        split at at_
        · next here =>
          cases at_
          obtain ⟨before, apart⟩ := Scope.held_retired taken held
          rw [here]
          exact (if_neg apart).trans (owned.held pid scope lock entered before)
        · next away =>
          have owns := owned.held other found lock at_ held
          refine (if_neg fun lost => away ?_).trans owns
          have mine : lock ∈ scope.held := by
            rw [Scope.held, taken, List.take_add_one, lost]
            exact List.mem_append_right _ (by simp)
          exact Option.some.inj (owns.symm.trans (owned.held pid scope lock entered mine))
      · dsimp only at owns
        split at owns
        · cases owns
        · next kept =>
          obtain ⟨found, at_, held⟩ := owned.entered other lock owns
          by_cases here : other = pid
          · subst here
            cases entered.symm.trans at_
            refine ⟨scope.retired, Function.update_self other _ _, ?_⟩
            rw [Scope.held, taken, List.take_add_one, List.mem_append] at held
            obtain old | last := held
            · rw [Scope.held, Scope.retired, taken]
              exact old
            · exact absurd (Option.mem_toList.mp last) kept
          · exact ⟨found, (Function.update_of_ne here _ _).trans at_, held⟩

theorem Owned.die (owned : locks.Owned) (pid : Nat) : (locks.die pid).Owned := by
  refine ⟨fun other found lock at_ held => ?_, fun other lock owns => ?_⟩
  · simp only [Locks.die, Function.update_apply] at at_ ⊢
    split at at_
    · cases at_
    · next away =>
      have owns := owned.held other found lock at_ held
      rw [owns, if_neg]
      exact fun same => away (Option.some.inj same)
  · simp only [Locks.die] at owns
    split at owns
    · cases owns
    · next others =>
      obtain ⟨found, at_, held⟩ := owned.entered other lock owns
      have apart : other ≠ pid := by
        rintro rfl
        exact others owns
      exact ⟨found, (Function.update_of_ne apart _ _).trans at_, held⟩

/-- A process in a scope can do something: it runs its body, gives locks back, or finds the next one free. -/
def Moves (locks : Locks Lock) (pid : Nat) : Prop :=
  ∃ scope, locks.scope pid = some scope ∧ ∀ lock, scope.next? = some lock → locks.owner lock = none

/-- As all take their locks in one order, somebody can always do something. -/
theorem Owned.moves [WellFoundedGT Lock] (owned : locks.Owned) (entered : locks.scope pid = some scope) : ∃ other, locks.Moves other := by
  cases waits : scope.next? with
  | none => exact ⟨pid, scope, entered, fun lock found => absurd found (by rw [waits]; exact (Option.some_ne_none lock).symm)⟩
  | some wanted =>
    -- whoever has the lock that is waited for waits for a later one
    induction wanted using WellFoundedGT.induction generalizing pid scope with
    | ind wanted ih =>
      cases owns : locks.owner wanted with
      | none =>
        refine ⟨pid, scope, entered, fun lock found => ?_⟩
        rwa [← Option.some.inj (waits.symm.trans found)]
      | some blocker =>
        obtain ⟨second, at_, held⟩ := owned.entered blocker wanted owns
        cases later : second.next? with
        | none => exact ⟨blocker, second, at_, fun lock found => absurd found (by rw [later]; exact (Option.some_ne_none lock).symm)⟩
        | some lock => exact ih lock (Scope.held_lt_next later held) at_ later

end owned

/-! What the operations do to scopes. -/

section scopes

variable {locks} {pid other : Nat} {scope : Scope Lock}

theorem enter_scope (needs : List Lock) (ordered : needs.Pairwise (· < ·)) (apart : other ≠ pid) :
    (locks.enter pid needs ordered).scope other = locks.scope other := Function.update_of_ne apart _ _

theorem take_scope (apart : other ≠ pid) : (locks.take pid).scope other = locks.scope other := by
  unfold Locks.take
  split
  · rfl
  · split
    · rfl
    · split
      · exact Function.update_of_ne apart _ _
      · rfl

theorem leave_scope (apart : other ≠ pid) : (locks.leave pid).scope other = locks.scope other := by
  unfold Locks.leave
  split
  · rfl
  · split <;> exact Function.update_of_ne apart _ _

theorem die_scope (apart : other ≠ pid) : (locks.die pid).scope other = locks.scope other := Function.update_of_ne apart _ _

/-- A process inside its scope takes nothing more. -/
theorem take_inside (entered : locks.scope pid = some scope) (inside : scope.Inside) : locks.take pid = locks := by
  have done : scope.next? = none := by
    rw [Scope.next?, inside.2]
    exact List.getElem?_eq_none inside.1
  unfold Locks.take
  rw [entered]
  simp only [done]

theorem take_needs (taken : (locks.take pid).scope pid = some scope) : ∃ before, locks.scope pid = some before ∧ scope.needs = before.needs := by
  unfold Locks.take at taken
  split at taken
  · exact ⟨scope, taken, rfl⟩
  · next before entered =>
    split at taken
    · exact ⟨scope, taken, rfl⟩
    · split at taken
      · cases (Function.update_self pid _ _).symm.trans taken
        exact ⟨before, entered, rfl⟩
      · exact ⟨scope, taken, rfl⟩

theorem leave_needs (left : (locks.leave pid).scope pid = some scope) : ∃ before, locks.scope pid = some before ∧ scope.needs = before.needs := by
  unfold Locks.leave at left
  split at left
  · exact ⟨scope, left, rfl⟩
  · next before entered =>
    split at left
    · cases (Function.update_self pid _ _).symm.trans left
    · cases (Function.update_self pid _ _).symm.trans left
      exact ⟨before, entered, rfl⟩

end scopes

end Locks

/-! Locks of which a process has at most one. -/

/-- What is kept with each lock tells who has it. -/
def Exclusive {Lock Process : Type} (holder : Lock → Option Process) (holds : Process → Option Lock) : Prop :=
  ∀ lock process, holder lock = some process ↔ holds process = some lock

namespace Exclusive

variable {Lock Process : Type} [DecidableEq Lock] [DecidableEq Process] {holder : Lock → Option Process} {holds : Process → Option Lock}
  {process : Process} {lock : Lock}

theorem acquire (exclusive : Exclusive holder holds) (free : holder lock = none) (idle : holds process = none) :
    Exclusive (Function.update holder lock (some process)) (Function.update holds process (some lock)) := by
  intro other next
  by_cases same : other = lock
  · subst same
    by_cases here : next = process
    · subst here
      simp
    · have apart := exclusive other next
      rw [free] at apart
      rw [Function.update_self, Function.update_of_ne here]
      exact iff_of_false (fun claimed => here (Option.some.inj claimed).symm) fun claimed => by cases apart.mpr claimed
  · by_cases here : next = process
    · subst here
      have apart := exclusive other next
      rw [idle] at apart
      rw [Function.update_of_ne same, Function.update_self]
      exact iff_of_false (fun claimed => by cases apart.mp claimed) fun claimed => same (Option.some.inj claimed).symm
    · rw [Function.update_of_ne same, Function.update_of_ne here]
      exact exclusive other next

theorem release (exclusive : Exclusive holder holds) (held : holds process = some lock) :
    Exclusive (Function.update holder lock none) (Function.update holds process none) := by
  have mine : holder lock = some process := (exclusive lock process).mpr held
  intro other next
  by_cases here : next = process
  · subst here
    rw [Function.update_self]
    by_cases same : other = lock
    · subst same
      simp
    · rw [Function.update_of_ne same]
      refine iff_of_false (fun claimed => same ?_) (by rintro ⟨⟩)
      exact Option.some.inj (((exclusive other next).mp claimed).symm.trans held)
  · rw [Function.update_of_ne here]
    by_cases same : other = lock
    · subst same
      rw [Function.update_self]
      refine iff_of_false (by rintro ⟨⟩) fun claimed => here ?_
      exact Option.some.inj (((exclusive other next).mpr claimed).symm.trans mine)
    · rw [Function.update_of_ne same]
      exact exclusive other next

end Exclusive

end Coordinator.Kit
