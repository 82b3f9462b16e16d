import Coordinator.Kit.Attempt
import Mathlib.Logic.Function.Basic
import Mathlib.Data.List.Nodup

/-! Replacing the entries of a directory one by one, with a log from which they are put back. An operation may be
refused, and then it has done nothing; the process may also be interrupted or killed before or right behind it. -/

namespace Coordinator.Kit.UndoLog

inductive Signal
  | interrupt | killed
  deriving DecidableEq

inductive Raised
  | error (message : String)
  | stopped (signal : Signal)
  deriving DecidableEq

/-- What comes to an operation. -/
inductive Trouble
  | refused (message : String)
  | stopped (signal : Signal) (late : Bool)

/-- The operations on one name. -/
inductive Move
  | parent | asideParent | aside | bring | unlink | putBack

structure State (Name Entry : Type) where
  target : Name → Option Entry
  source : Name → Option Entry
  backup : Name → Option Entry
  /-- The names that were taken up, and whether there was an entry under each. -/
  log : List (Name × Bool)

variable {Name Entry : Type}

abbrev Moving (Name Entry : Type) := Attempt (State Name Entry) Raised

def step (trouble : Option Trouble) (change : State Name Entry → State Name Entry) : Moving Name Entry Unit := fun state =>
  match trouble with
  | none => (.ok (), change state)
  | some (.refused message) => (.error (.error message), state)
  | some (.stopped signal late) => (.error (.stopped signal), if late then change state else state)

theorem Ends.step {before : State Name Entry} {trouble : Option Trouble} {change : State Name Entry → State Name Entry}
    {post : Except Raised Unit → State Name Entry → Prop} (done : trouble = none → post (.ok ()) (change before))
    (refused : trouble ≠ none → ∀ message, post (.error (.error message)) before)
    (stopped : trouble ≠ none → ∀ signal, post (.error (.stopped signal)) before ∧ post (.error (.stopped signal)) (change before)) :
    Attempt.Ends before (step trouble change) post := by
  cases trouble with
  | none => exact done rfl
  | some found =>
    have some_ : some found ≠ none := Option.some_ne_none found
    cases found with
    | refused message => exact refused some_ message
    | stopped signal late =>
      cases late with
      | false => exact (stopped some_ signal).1
      | true => exact (stopped some_ signal).2

theorem Ends.skip {before : State Name Entry} {post : Except Raised Unit → State Name Entry → Prop} (holds : post (.ok ()) before) :
    Attempt.Ends before (pure ()) post := holds

section

variable [DecidableEq Name] (faults : Move → Name → Option Trouble) (refusal : Entry → Option String)

def State.setAside (state : State Name Entry) (name : Name) : State Name Entry :=
  { state with target := Function.update state.target name none, backup := Function.update state.backup name (state.target name) }

def State.record (state : State Name Entry) (name : Name) (existed : Bool) : State Name Entry :=
  { state with log := state.log ++ [(name, existed)] }

def State.bring (state : State Name Entry) (name : Name) : State Name Entry :=
  { state with target := Function.update state.target name (state.source name), source := Function.update state.source name none }

def State.unlink (state : State Name Entry) (name : Name) : State Name Entry :=
  { state with target := Function.update state.target name none }

def State.putBack (state : State Name Entry) (name : Name) : State Name Entry :=
  { state with target := Function.update state.target name (state.backup name), backup := Function.update state.backup name none }

def refuse (found : Option String) : Moving Name Entry Unit :=
  .lift (match found with | some message => .error (.error message) | none => .ok ())

/-- Take an entry out of the target and keep it. -/
def moveAside (name : Name) : Moving Name Entry Unit := do
  step (faults .asideParent name) id
  step (faults .aside name) (·.setAside name)

/-- Put the new entry under a name. -/
def replaceOne (name : Name) : Moving Name Entry Unit := do
  step (faults .parent name) id
  let found ← .look (State.target · name)
  refuse (found.bind refusal)
  .when found.isSome (moveAside faults name)
  .act none (·.record name found.isSome)
  let new ← .look (State.source · name)
  refuse (if new.isNone then some "No such file or directory" else none)
  step (faults .bring name) (·.bring name)

def replaceAll : List Name → Moving Name Entry Unit
  | [] => pure ()
  | name :: rest => do
      replaceOne faults refusal name
      replaceAll rest

/-- Leave nothing under a name. -/
def removeOne (kept : Name → Option String) (name : Name) : Moving Name Entry Unit := do
  refuse (kept name)
  let found ← .look (State.target · name)
  refuse (found.bind refusal)
  .when found.isSome do
    moveAside faults name
    .act none (·.record name true)

def removeAll (kept : Name → Option String) : List Name → Moving Name Entry Unit
  | [] => pure ()
  | name :: rest => do
      removeOne faults refusal kept name
      removeAll kept rest

def undoOne (entry : Name × Bool) : Moving Name Entry Unit := do
  step (faults .unlink entry.1) (·.unlink entry.1)
  let old ← .look (State.backup · entry.1)
  .when (entry.2 && old.isSome) (step (faults .putBack entry.1) (·.putBack entry.1))

def undoAll : List (Name × Bool) → Moving Name Entry Unit
  | [] => pure ()
  | entry :: rest => do
      undoOne faults entry
      undoAll rest

end

section

variable (before final : Name → Option Entry)

/-- The log tells how to put everything back. -/
structure Logged (entries : List (Name × Bool)) (state : State Name Entry) : Prop where
  distinct : (entries.map Prod.fst).Nodup
  told : ∀ entry ∈ entries, entry.2 = (before entry.1).isSome
  kept : ∀ entry ∈ entries, entry.2 = true → state.backup entry.1 = before entry.1
  others : ∀ name, name ∉ entries.map Prod.fst → state.target name = before name

/-- Each entry that there was is still there or kept. -/
def Recoverable (state : State Name Entry) : Prop :=
  ∀ name entry, before name = some entry → state.target name = some entry ∨ state.backup name = some entry

/-- What was done first is done, the next name may be half done, and the rest is as it was. -/
structure TornAt (done : List Name) (next : Option Name) (target : Name → Option Entry) : Prop where
  new : ∀ name ∈ done, target name = final name
  old : ∀ name, name ∉ done → next ≠ some name → target name = before name
  half : ∀ name, name ∉ done → next = some name → target name = before name ∨ target name = none ∨ target name = final name

def Torn (names : List Name) (target : Name → Option Entry) : Prop :=
  ∃ done rest, names = done ++ rest ∧ TornAt before final done rest.head? target

/-- Each name has its old entry, its new one or none, and other names are as they were. -/
def Scattered (names : List Name) (target : Name → Option Entry) : Prop :=
  ∀ name, target name = before name ∨ name ∈ names ∧ (target name = none ∨ target name = final name)

/-- Between two names. -/
structure Midway (source : Name → Option Entry) (done : List Name) (state : State Name Entry) : Prop where
  logged : Logged before state.log state
  within : ∀ name ∈ state.log.map Prod.fst, name ∈ done
  new : ∀ name ∈ done, state.target name = final name
  old : ∀ name, name ∉ done → state.target name = before name
  source : ∀ name, name ∉ done → state.source name = source name

end

variable {before final source : Name → Option Entry} {done : List Name} {name : Name} {state : State Name Entry}

theorem Logged.recoverable {entries : List (Name × Bool)} [DecidableEq Name] (logged : Logged before entries state) :
    Recoverable before state := by
  intro name entry present
  by_cases listed : name ∈ entries.map Prod.fst
  · obtain ⟨found, member, rfl⟩ := List.mem_map.mp listed
    have existed : found.2 = true := by rw [logged.told found member, present]; rfl
    exact .inr ((logged.kept found member existed).trans present)
  · exact .inl ((logged.others name listed).trans present)

/-- A log may be worked off from its end. -/
theorem Logged.reverse {entries : List (Name × Bool)} (logged : Logged before entries state) : Logged before entries.reverse state where
  distinct := by
    rw [List.map_reverse]
    exact List.nodup_reverse.mpr logged.distinct
  told entry member := logged.told entry (List.mem_reverse.mp member)
  kept entry member := logged.kept entry (List.mem_reverse.mp member)
  others name absent := logged.others name fun listed => absent (by rw [List.map_reverse]; exact List.mem_reverse.mpr listed)

theorem Logged.snoc {existed : Bool} (logged : Logged before state.log state) (fresh : name ∉ state.log.map Prod.fst)
    (told : existed = (before name).isSome) {after : State Name Entry} (log : after.log = state.log ++ [(name, existed)])
    (kept : existed = true → after.backup name = before name)
    (apart : ∀ other, other ≠ name → after.target other = state.target other ∧ after.backup other = state.backup other) :
    Logged before after.log after := by
  have names : after.log.map Prod.fst = state.log.map Prod.fst ++ [name] := by rw [log, List.map_append]; rfl
  refine ⟨?_, ?_, ?_, ?_⟩
  · rw [names]
    refine List.nodup_append.mpr ⟨logged.distinct, List.nodup_singleton name, ?_⟩
    rintro other listed last here rfl
    exact fresh (List.mem_singleton.mp here ▸ listed)
  · intro entry member
    rw [log, List.mem_append, List.mem_singleton] at member
    obtain member | rfl := member
    · exact logged.told entry member
    · exact told
  · intro entry member there
    rw [log, List.mem_append, List.mem_singleton] at member
    obtain member | rfl := member
    · have elsewhere : entry.1 ≠ name := fun same => fresh (same ▸ List.mem_map_of_mem member)
      exact (apart entry.1 elsewhere).2.trans (logged.kept entry member there)
    · exact kept there
  · intro other absent
    rw [names, List.mem_append, List.mem_singleton, not_or] at absent
    exact (apart other absent.2).1.trans (logged.others other absent.1)

theorem Torn.start {names : List Name} : Torn before final names before :=
  ⟨[], names, rfl, List.forall_mem_nil _, fun _ _ _ => rfl, fun _ _ _ => .inl rfl⟩

theorem Torn.scattered {target : Name → Option Entry} {names : List Name} [DecidableEq Name] (torn : Torn before final names target) :
    Scattered before final names target := by
  obtain ⟨done, rest, rfl, torn⟩ := torn
  intro name
  by_cases past : name ∈ done
  · exact .inr ⟨List.mem_append_left _ past, .inr (torn.new name past)⟩
  · by_cases here : rest.head? = some name
    · exact (torn.half name past here).imp id fun half => ⟨List.mem_append_right _ (List.mem_of_mem_head? here), half⟩
    · exact .inl (torn.old name past here)

theorem Midway.start {state : State Name Entry} (log : state.log = []) : Midway state.target final state.source [] state where
  logged := ⟨by rw [log]; exact List.nodup_nil, by rw [log]; exact List.forall_mem_nil _, by rw [log]; exact List.forall_mem_nil _,
    fun _ _ => rfl⟩
  within := by rw [log]; exact List.forall_mem_nil _
  new := List.forall_mem_nil _
  old _ _ := rfl
  source _ _ := rfl

theorem Midway.tornAt {next : Option Name} (midway : Midway before final source done state) :
    TornAt before final done next state.target where
  new := midway.new
  old other past _ := midway.old other past
  half other past _ := .inl (midway.old other past)

/-- The next name may be done already. -/
theorem Midway.tornAt_before (midway : Midway before final source (done ++ [name]) state) :
    TornAt before final done (some name) state.target where
  new other past := midway.new other (List.mem_append_left _ past)
  old other past elsewhere := midway.old other fun member =>
    (List.mem_append.mp member).elim past fun here => elsewhere (congrArg some (List.mem_singleton.mp here).symm)
  half other _ here := by
    cases here
    exact .inr (.inr (midway.new name (List.mem_append_right _ (List.mem_singleton.mpr rfl))))

theorem Midway.fresh (midway : Midway before final source done state) (later : name ∉ done) : name ∉ state.log.map Prod.fst :=
  fun listed => later (midway.within name listed)

/-- A name has been taken up and nothing stands under it. -/
structure Cleared (before final source : Name → Option Entry) (done : List Name) (name : Name) (state : State Name Entry) : Prop where
  logged : Logged before state.log state
  within : ∀ other ∈ state.log.map Prod.fst, other ∈ done ++ [name]
  new : ∀ other ∈ done, state.target other = final other
  old : ∀ other, other ∉ done → other ≠ name → state.target other = before other
  gone : state.target name = none
  source : ∀ other, other ∉ done → state.source other = source other

theorem Cleared.tornAt (cleared : Cleared before final source done name state) : TornAt before final done (some name) state.target where
  new := cleared.new
  old other past elsewhere := cleared.old other past fun here => elsewhere (congrArg some here.symm)
  half other _ here := by
    cases here
    exact .inr (.inl cleared.gone)

/-- A name under which nothing belongs is done with. -/
theorem Cleared.removed (cleared : Cleared before final source done name state) (gone : final name = none) :
    Midway before final source (done ++ [name]) state where
  logged := cleared.logged
  within := cleared.within
  new other past := by
    obtain past | here := List.mem_append.mp past
    · exact cleared.new other past
    · rw [List.mem_singleton.mp here, cleared.gone, gone]
  old other past := by
    rw [List.mem_append, List.mem_singleton, not_or] at past
    exact cleared.old other past.1 past.2
  source other past := by
    rw [List.mem_append, not_or] at past
    exact cleared.source other past.1

/-- A name under which nothing stands is done with where nothing belongs. -/
theorem Midway.skip (midway : Midway before final source done state) (absent : state.target name = none) (gone : final name = none) :
    Midway before final source (done ++ [name]) state where
  logged := midway.logged
  within other listed := List.mem_append_left _ (midway.within other listed)
  new other past := by
    obtain earlier | here := List.mem_append.mp past
    · exact midway.new other earlier
    · rw [List.mem_singleton.mp here, absent, gone]
  old other past := midway.old other fun member => past (List.mem_append_left _ member)
  source other past := midway.source other fun member => past (List.mem_append_left _ member)

/-- What a failure at a name leaves: an error leaves a log that undoes everything, a signal at least every old entry. -/
def Failed (before final : Name → Option Entry) (done : List Name) (name : Name) (raised : Raised) (state : State Name Entry) : Prop :=
  TornAt before final done (some name) state.target ∧
    match raised with
    | .error _ => Logged before state.log state ∧ ∀ other ∈ state.log.map Prod.fst, other ∈ done ++ [name]
    | .stopped _ => Recoverable before state

theorem Failed.of_logged [DecidableEq Name] (torn : TornAt before final done (some name) state.target)
    (logged : Logged before state.log state) (within : ∀ other ∈ state.log.map Prod.fst, other ∈ done ++ [name]) (raised : Raised) :
    Failed before final done name raised state := by
  refine ⟨torn, ?_⟩
  cases raised with
  | error message => exact ⟨logged, within⟩
  | stopped signal => exact logged.recoverable

theorem Midway.failed [DecidableEq Name] (midway : Midway before final source done state) (raised : Raised) :
    Failed before final done name raised state :=
  .of_logged midway.tornAt midway.logged (fun other listed => List.mem_append_left _ (midway.within other listed)) raised

theorem Cleared.failed [DecidableEq Name] (cleared : Cleared before final source done name state) (raised : Raised) :
    Failed before final done name raised state := .of_logged cleared.tornAt cleared.logged cleared.within raised

theorem Midway.failed_before [DecidableEq Name] (midway : Midway before final source (done ++ [name]) state) (raised : Raised) :
    Failed before final done name raised state := .of_logged midway.tornAt_before midway.logged midway.within raised

section operations

variable (faults : Move → Name → Option Trouble) (refusal : Entry → Option String) (kept : Name → Option String)

/-- Something stands against a name: a fault of an operation on it, its entry, or that it is to be kept. -/
def Blocked (before : Name → Option Entry) (name : Name) : Prop :=
  (∃ move, faults move name ≠ none) ∨ (before name).bind refusal ≠ none ∨ kept name ≠ none

/-- An operation on a name ends as it should, or it fails there. -/
def Ended (before final : Name → Option Entry) (done : List Name) (name : Name) (goal : State Name Entry → Prop) :
    Except Raised Unit → State Name Entry → Prop
  | .ok _, after => goal after
  | .error raised, after => Blocked faults refusal kept before name ∧ Failed before final done name raised after

variable {faults refusal kept} {goal next : State Name Entry → Prop}

theorem Ended.bind (goal : State Name Entry → Prop) {first : Moving Name Entry Unit} {rest : Unit → Moving Name Entry Unit}
    (ends : Attempt.Ends state first (Ended faults refusal kept before final done name goal))
    (continued : ∀ after, goal after → Attempt.Ends after (rest ()) (Ended faults refusal kept before final done name next)) :
    Attempt.Ends state (first >>= rest) (Ended faults refusal kept before final done name next) :=
  Attempt.Ends.bind _ ends (fun _ _ failed => failed) fun _ after holds => continued after holds

theorem Ended.step {move : Move} {change : State Name Entry → State Name Entry} (reached : goal (change state))
    (stays : ∀ raised, Failed before final done name raised state)
    (late : ∀ signal, Failed before final done name (.stopped signal) (change state)) :
    Attempt.Ends state (step (faults move name) change) (Ended faults refusal kept before final done name goal) := by
  refine Ends.step (fun _ => reached) (fun trouble message => ?_) fun trouble signal => ?_
  · exact ⟨.inl ⟨move, trouble⟩, stays _⟩
  · exact ⟨⟨.inl ⟨move, trouble⟩, stays _⟩, .inl ⟨move, trouble⟩, late signal⟩

theorem Ended.refuse {found : Option String} (reached : found = none → goal state)
    (blocked : found ≠ none → Blocked faults refusal kept before name) (stays : ∀ raised, Failed before final done name raised state) :
    Attempt.Ends state (refuse found) (Ended faults refusal kept before final done name goal) := by
  cases found with
  | none => exact reached rfl
  | some message => exact ⟨blocked (Option.some_ne_none message), stays _⟩

/-- A run over the work ahead, behind what is done, ends past it all, or it fails at one of its names. -/
def Ran (faults : Move → Name → Option Trouble) (refusal : Entry → Option String) (kept : Name → Option String)
    (before final : Name → Option Entry) (done work : List Name) (goal : State Name Entry → Prop) : Except Raised Unit → State Name Entry → Prop
  | .ok _, after => goal after
  | .error raised, after => ∃ first name rest, work = first ++ name :: rest ∧ Blocked faults refusal kept before name ∧
      Failed before final (done ++ first) name raised after

theorem Ran.cons {rest : List Name} {outcome : Except Raised Unit} {after : State Name Entry}
    (ran : Ran faults refusal kept before final (done ++ [name]) rest goal outcome after)
    (reached : goal after → next after) : Ran faults refusal kept before final done (name :: rest) next outcome after := by
  cases outcome with
  | ok u => exact reached ran
  | error raised =>
    obtain ⟨first, other, rest, rfl, blocked, failed⟩ := ran
    rw [List.append_assoc] at failed
    exact ⟨name :: first, other, rest, rfl, blocked, failed⟩

theorem passed_snoc (passed : ∀ other ∈ done, (before other).bind refusal = none) (admitted : (before name).bind refusal = none) :
    ∀ other ∈ done ++ [name], (before other).bind refusal = none := by
  intro other past
  obtain earlier | here := List.mem_append.mp past
  · exact passed other earlier
  · rw [List.mem_singleton.mp here]
    exact admitted

variable [DecidableEq Name]

theorem setAside_of_ne {other : Name} (elsewhere : other ≠ name) : (state.setAside name).target other = state.target other ∧
    (state.setAside name).backup other = state.backup other :=
  ⟨Function.update_of_ne elsewhere .., Function.update_of_ne elsewhere ..⟩

theorem setAside_self : (state.setAside name).target name = none ∧ (state.setAside name).backup name = state.target name :=
  ⟨Function.update_self .., Function.update_self ..⟩

/-- An entry is set aside before the log tells of it. -/
theorem Midway.setAside (midway : Midway before final source done state) (later : name ∉ done) (signal : Signal) :
    Failed before final done name (.stopped signal) (state.setAside name) := by
  constructor
  · refine ⟨fun other past => ?_, fun other past elsewhere => ?_, fun other _ here => ?_⟩
    · have elsewhere : other ≠ name := by
        rintro rfl
        exact later past
      exact (setAside_of_ne elsewhere).1.trans (midway.new other past)
    · exact (setAside_of_ne fun here => elsewhere (congrArg some here.symm)).1.trans (midway.old other past)
    · cases here
      exact .inr (.inl setAside_self.1)
  · intro other entry present
    by_cases here : other = name
    · subst here
      exact .inr (setAside_self.2.trans ((midway.old other later).trans present))
    · exact (midway.logged.recoverable other entry present).imp (setAside_of_ne here).1.trans (setAside_of_ne here).2.trans

def State.cleared (state : State Name Entry) (name : Name) : State Name Entry :=
  (if (state.target name).isSome then state.setAside name else state).record name (state.target name).isSome

theorem Midway.cleared (midway : Midway before final source done state) (later : name ∉ done) :
    Cleared before final source done name (state.cleared name) := by
  have old : state.target name = before name := midway.old name later
  have within {existed : Bool} : ∀ other ∈ (state.log ++ [(name, existed)]).map Prod.fst, other ∈ done ++ [name] := by
    intro other listed
    rw [List.map_append, List.mem_append] at listed
    exact List.mem_append.mpr (listed.imp (midway.within other) id)
  unfold State.cleared
  by_cases present : (state.target name).isSome = true
  · rw [if_pos present]
    refine ⟨midway.logged.snoc (midway.fresh later) (by rw [old]) rfl (fun _ => setAside_self.2.trans old)
      fun other elsewhere => setAside_of_ne elsewhere, within, fun other past => ?_, fun other past elsewhere => ?_,
      setAside_self.1, midway.source⟩
    · have elsewhere : other ≠ name := by
        rintro rfl
        exact later past
      exact (setAside_of_ne elsewhere).1.trans (midway.new other past)
    · exact (setAside_of_ne elsewhere).1.trans (midway.old other past)
  · rw [if_neg present]
    exact ⟨midway.logged.snoc (midway.fresh later) (by rw [old]) rfl (fun claimed => absurd claimed present) fun _ _ => ⟨rfl, rfl⟩,
      within, midway.new, fun other past _ => midway.old other past, Option.not_isSome_iff_eq_none.mp present, midway.source⟩

/-- The new entry is put where nothing stands. -/
theorem Cleared.bring (cleared : Cleared before final source done name state) (later : name ∉ done) (same : final name = source name)
    (listed : name ∈ state.log.map Prod.fst) : Midway before final source (done ++ [name]) (state.bring name) := by
  have brought : (state.bring name).target name = final name :=
    (Function.update_self ..).trans ((cleared.source name later).trans same.symm)
  have apart (other : Name) (elsewhere : other ≠ name) : (state.bring name).target other = state.target other :=
    Function.update_of_ne elsewhere ..
  refine ⟨⟨cleared.logged.distinct, cleared.logged.told, cleared.logged.kept, fun other absent => ?_⟩, cleared.within, fun other past => ?_,
    fun other past => ?_, fun other past => ?_⟩
  · have elsewhere : other ≠ name := by
      rintro rfl
      exact absent listed
    exact (apart other elsewhere).trans (cleared.logged.others other absent)
  · obtain earlier | here := List.mem_append.mp past
    · have elsewhere : other ≠ name := by
        rintro rfl
        exact later earlier
      exact (apart other elsewhere).trans (cleared.new other earlier)
    · rw [List.mem_singleton.mp here]
      exact brought
  · rw [List.mem_append, List.mem_singleton, not_or] at past
    exact (apart other past.2).trans (cleared.old other past.1 past.2)
  · rw [List.mem_append, List.mem_singleton, not_or] at past
    exact (Function.update_of_ne past.2 ..).trans (cleared.source other past.1)

theorem moveAside_ends (midway : Midway before final source done state) (later : name ∉ done) :
    Attempt.Ends state (moveAside faults name) (Ended faults refusal kept before final done name (· = state.setAside name)) := by
  have stays (raised : Raised) : Failed before final done name raised state := midway.failed raised
  refine Ended.bind (· = state) (.step rfl stays fun signal => stays _) ?_
  rintro after rfl
  exact .step rfl stays (midway.setAside later)

theorem replaceOne_ends (kept : Name → Option String) (midway : Midway before final source done state) (later : name ∉ done) (same : final name = source name)
    (there : (source name).isSome = true) : Attempt.Ends state (replaceOne faults refusal name)
      (Ended faults refusal kept before final done name fun after =>
        (before name).bind refusal = none ∧ Midway before final source (done ++ [name]) after) := by
  have stays (raised : Raised) : Failed before final done name raised state := midway.failed raised
  have old : state.target name = before name := midway.old name later
  refine Ended.bind (· = state) (.step rfl stays fun signal => stays _) ?_
  rintro after rfl
  refine Attempt.Ends.look_bind (Ended.bind (fun mid => (before name).bind refusal = none ∧ mid = after) ?_ ?_)
  · exact .refuse (fun passed => ⟨old ▸ passed, rfl⟩) (fun found => .inr (.inl (old ▸ found))) stays
  rintro mid ⟨admitted, rfl⟩
  refine Ended.bind (· = if (mid.target name).isSome then mid.setAside name else mid) ?_ ?_
  · cases (mid.target name).isSome with
    | true => exact moveAside_ends midway later
    | false => exact Ends.skip rfl
  rintro after rfl
  have cleared := midway.cleared later
  have listed : name ∈ (mid.cleared name).log.map Prod.fst := by
    unfold State.cleared State.record
    rw [List.map_append]
    exact List.mem_append_right _ (List.mem_singleton.mpr rfl)
  refine Attempt.Ends.act_bind (fun _ none_ => by cases none_) fun _ => ?_
  change Attempt.Ends (mid.cleared name) _ _
  have found : (mid.cleared name).source name = source name := cleared.source name later
  refine Attempt.Ends.look_bind (Ended.bind (· = mid.cleared name) ?_ ?_)
  · refine .refuse (fun _ => rfl) (fun missing => absurd ?_ missing) cleared.failed
    rw [found, Option.isNone_eq_false_iff.mpr there]
    rfl
  rintro after rfl
  have brought := cleared.bring later same listed
  exact .step ⟨admitted, brought⟩ cleared.failed fun signal => brought.failed_before _

theorem removeOne_ends (midway : Midway before final source done state) (passed : ∀ other ∈ done, (before other).bind refusal = none)
    (gone : kept name = none → final name = none) : Attempt.Ends state (removeOne faults refusal kept name)
      (Ended faults refusal kept before final done name fun after =>
        (kept name = none ∧ (before name).bind refusal = none) ∧ Midway before final source (done ++ [name]) after) := by
  have stays (raised : Raised) : Failed before final done name raised state := midway.failed raised
  refine Ended.bind (fun mid => kept name = none ∧ mid = state) ?_ ?_
  · exact .refuse (fun free => ⟨free, rfl⟩) (fun held => .inr (.inr held)) stays
  rintro mid ⟨free, rfl⟩
  -- A name that is done already has nothing under it any more.
  have later : (mid.target name).isSome = true → name ∉ done := fun present past => by
    rw [midway.new name past, gone free] at present
    cases present
  refine Attempt.Ends.look_bind (Ended.bind (fun after => (before name).bind refusal = none ∧ after = mid) ?_ ?_)
  · by_cases past : name ∈ done
    · refine .refuse (fun _ => ⟨passed name past, rfl⟩) (fun refused => absurd ?_ refused) stays
      rw [midway.new name past, gone free]
      rfl
    · rw [midway.old name past]
      exact .refuse (fun admitted => ⟨admitted, rfl⟩) (fun refused => .inr (.inl refused)) stays
  rintro after ⟨admitted, rfl⟩
  cases present : (after.target name).isSome with
  | false => exact Attempt.Ends.pure ⟨⟨free, admitted⟩, midway.skip (Option.isSome_eq_false_iff.mp present |> Option.isNone_iff_eq_none.mp) (gone free)⟩
  | true =>
    refine Ended.bind _ (moveAside_ends midway (later present)) ?_
    rintro moved rfl
    refine Attempt.Ends.act (fun _ none_ => by cases none_) fun _ => ⟨⟨free, admitted⟩, ?_⟩
    have cleared := midway.cleared (later present)
    rw [State.cleared, if_pos present, present] at cleared
    exact cleared.removed (gone free)

theorem replaceAll_ends (kept : Name → Option String) {rest : List Name} (midway : Midway before final source done state)
    (passed : ∀ other ∈ done, (before other).bind refusal = none) (distinct : (done ++ rest).Nodup)
    (there : ∀ name ∈ rest, final name = source name ∧ (source name).isSome = true) :
    Attempt.Ends state (replaceAll faults refusal rest) (Ran faults refusal kept before final done rest fun after =>
      (∀ other ∈ done ++ rest, (before other).bind refusal = none) ∧ Midway before final source (done ++ rest) after) := by
  induction rest generalizing done state with
  | nil =>
    rw [List.append_nil]
    exact Attempt.Ends.pure ⟨passed, midway⟩
  | cons name rest ih =>
    obtain ⟨same, given⟩ := there name List.mem_cons_self
    have later : name ∉ done := fun past => (List.nodup_append.mp distinct).2.2 name past name List.mem_cons_self rfl
    refine Attempt.Ends.bind _ (replaceOne_ends kept midway later same given) ?_ ?_
    · rintro raised after ⟨blocked, failed⟩
      exact ⟨[], name, rest, rfl, blocked, (List.append_nil done).symm ▸ failed⟩
    · rintro - after ⟨admitted, midway⟩
      have split : done ++ name :: rest = (done ++ [name]) ++ rest := by rw [List.append_assoc]; rfl
      rw [split] at distinct ⊢
      exact (ih midway (passed_snoc passed admitted) distinct fun other listed => there other (List.mem_cons_of_mem _ listed)).mono
        fun _ _ ran => ran.cons id

theorem removeAll_ends {rest : List Name} (midway : Midway before final source done state)
    (passed : ∀ other ∈ done, (before other).bind refusal = none) (gone : ∀ name ∈ rest, kept name = none → final name = none) :
    Attempt.Ends state (removeAll faults refusal kept rest) (Ran faults refusal kept before final done rest fun after =>
      (∀ name ∈ rest, kept name = none) ∧ (∀ other ∈ done ++ rest, (before other).bind refusal = none) ∧
        Midway before final source (done ++ rest) after) := by
  induction rest generalizing done state with
  | nil =>
    rw [List.append_nil]
    exact Attempt.Ends.pure ⟨List.forall_mem_nil _, passed, midway⟩
  | cons name rest ih =>
    refine Attempt.Ends.bind _ (removeOne_ends midway passed (gone name List.mem_cons_self)) ?_ ?_
    · rintro raised after ⟨blocked, failed⟩
      exact ⟨[], name, rest, rfl, blocked, (List.append_nil done).symm ▸ failed⟩
    · rintro - after ⟨⟨free, admitted⟩, midway⟩
      have split : done ++ name :: rest = (done ++ [name]) ++ rest := by rw [List.append_assoc]; rfl
      rw [split]
      exact (ih midway (passed_snoc passed admitted) fun other listed => gone other (List.mem_cons_of_mem _ listed)).mono
        fun _ _ ran => ran.cons fun reached => ⟨List.forall_mem_cons.mpr ⟨free, reached.1⟩, reached.2⟩

theorem Scattered.update {names : List Name} {value : Option Entry} (scattered : Scattered before final names state.target)
    (reached : value = before name ∨ name ∈ names ∧ (value = none ∨ value = final name)) :
    Scattered before final names (Function.update state.target name value) := by
  intro other
  by_cases here : other = name
  · subst here
    rw [Function.update_self]
    exact reached
  · rw [Function.update_of_ne here]
    exact scattered other

/-- What is left when putting back fails. -/
def Unfinished (faults : Move → Name → Option Trouble) (before final : Name → Option Entry) (names : List Name) (state : State Name Entry) :
    Prop :=
  (∃ move name, faults move name ≠ none) ∧ Scattered before final names state.target ∧ Recoverable before state

theorem undoOne_ends {names : List Name} {entry : Name × Bool} {rest : List (Name × Bool)} (logged : Logged before (entry :: rest) state)
    (scattered : Scattered before final names state.target) (listed : entry.1 ∈ names) :
    Attempt.Ends state (undoOne faults entry) fun outcome after => match outcome with
      | .ok _ => Logged before rest after ∧ Scattered before final names after.target
      | .error _ => Unfinished faults before final names after := by
  have distinct := List.nodup_cons.mp logged.distinct
  have told := logged.told entry List.mem_cons_self
  have apart {other : Name × Bool} (member : other ∈ rest) : other.1 ≠ entry.1 := fun same => by
    rw [← same] at distinct
    exact distinct.1 (List.mem_map_of_mem member)
  have others (value : Option Entry) {other : Name} (absent : other ∉ (entry :: rest).map Prod.fst) :
      Function.update state.target entry.1 value other = before other := by
    have elsewhere : other ≠ entry.1 := fun same => absent (List.mem_cons.mpr (.inl same))
    rw [Function.update_of_ne elsewhere]
    exact logged.others other absent
  have unlinked : Logged before (entry :: rest) (state.unlink entry.1) :=
    ⟨logged.distinct, logged.told, logged.kept, fun other absent => others none absent⟩
  have without : Scattered before final names (state.unlink entry.1).target := scattered.update (.inr ⟨listed, .inl rfl⟩)
  refine Attempt.Ends.bind (fun outcome after => match outcome with
    | .ok _ => after = state.unlink entry.1
    | .error _ => Unfinished faults before final names after) ?_ (fun _ _ failed => failed) ?_
  · refine Ends.step (fun _ => rfl) (fun trouble _ => ?_) fun trouble _ => ?_
    · exact ⟨⟨_, _, trouble⟩, scattered, logged.recoverable⟩
    · exact ⟨⟨⟨_, _, trouble⟩, scattered, logged.recoverable⟩, ⟨_, _, trouble⟩, without, unlinked.recoverable⟩
  rintro - after rfl
  refine Attempt.Ends.look_bind ?_
  cases existed : entry.2 with
  | false =>
    have absent : before entry.1 = none := by
      rw [existed] at told
      exact Option.not_isSome_iff_eq_none.mp fun present => by rw [present] at told; cases told
    refine Ends.skip ⟨⟨distinct.2, fun other member => logged.told other (List.mem_cons_of_mem _ member),
      fun other member => logged.kept other (List.mem_cons_of_mem _ member), fun other missing => ?_⟩, without⟩
    by_cases here : other = entry.1
    · subst here
      exact (Function.update_self ..).trans absent.symm
    · exact unlinked.others other (by rw [List.map_cons, List.mem_cons, not_or]; exact ⟨here, missing⟩)
  | true =>
    have backed : state.backup entry.1 = before entry.1 := logged.kept entry List.mem_cons_self existed
    have present : ((state.unlink entry.1).backup entry.1).isSome = true := by
      change (state.backup entry.1).isSome = true
      rw [backed, ← told, existed]
    rw [present]
    have back : ((state.unlink entry.1).putBack entry.1).target entry.1 = before entry.1 := (Function.update_self ..).trans backed
    have restored : Logged before rest ((state.unlink entry.1).putBack entry.1) := by
      refine ⟨distinct.2, fun other member => logged.told other (List.mem_cons_of_mem _ member), fun other member there => ?_,
        fun other missing => ?_⟩
      · exact (Function.update_of_ne (apart member) ..).trans (logged.kept other (List.mem_cons_of_mem _ member) there)
      · by_cases here : other = entry.1
        · subst here
          exact back
        · refine (Function.update_of_ne here ..).trans (unlinked.others other ?_)
          rw [List.map_cons, List.mem_cons, not_or]
          exact ⟨here, missing⟩
    have within : Scattered before final names ((state.unlink entry.1).putBack entry.1).target := without.update (.inl backed)
    refine Ends.step (fun _ => ⟨restored, within⟩) (fun trouble _ => ?_) fun trouble _ => ?_
    · exact ⟨⟨_, _, trouble⟩, without, unlinked.recoverable⟩
    · exact ⟨⟨⟨_, _, trouble⟩, without, unlinked.recoverable⟩, ⟨_, _, trouble⟩, within, restored.recoverable⟩

/-- Putting back ends where everything started, unless it fails. -/
theorem undoAll_ends {names : List Name} {entries : List (Name × Bool)} (logged : Logged before entries state)
    (scattered : Scattered before final names state.target) (listed : ∀ entry ∈ entries, entry.1 ∈ names) :
    Attempt.Ends state (undoAll faults entries) fun outcome after => match outcome with
      | .ok _ => after.target = before
      | .error _ => Unfinished faults before final names after := by
  induction entries generalizing state with
  | nil => exact Ends.skip (funext fun name => logged.others name List.not_mem_nil)
  | cons entry rest ih =>
    refine Attempt.Ends.bind _ (undoOne_ends logged scattered (listed entry List.mem_cons_self)) (fun _ _ failed => failed) ?_
    rintro - after ⟨logged, scattered⟩
    exact ih logged scattered fun other member => listed other (List.mem_cons_of_mem _ member)

end operations

end Coordinator.Kit.UndoLog
