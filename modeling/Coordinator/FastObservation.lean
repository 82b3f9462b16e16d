import Coordinator.Kit.Guard
import Coordinator.Kit.Run
import Coordinator.Kit.Text

/-! The cache of observations behind fast reads: callers share one slot, one running scan and a condition on which they
wait for it. The clock counts nanoseconds; whatever a caller does while it holds the lock is one step. -/

namespace Coordinator.FastObservation
open Kit

def maxAgeSeconds : Int := 300
def second : Nat := 1000000000
def waitSeconds : Nat := 90

/-- An age bound that a caller gives, which may be any value. -/
def validateMaxAge (value : Json) : Except String Nat :=
  match value with
  | .int seconds =>
      if 0 ≤ seconds ∧ seconds ≤ maxAgeSeconds then .ok seconds.toNat
      else .error "max_age_seconds must be an integer between 0 and 300"
  | _ => .error "max_age_seconds must be an integer between 0 and 300"

inductive Freshness where
  | boundedCache
  | freshScan
  deriving DecidableEq

/-- What a caller is told of a state. -/
structure Observation (S D : Type) where
  state : S
  inputDigest : D
  observedAt : String
  ageMs : Nat
  maxAgeSeconds : Nat
  freshness : Freshness

/-- The fields that the condition protects. -/
structure Cache (S D : Type) where
  refreshing : Bool := false
  state : Option S := none
  inputDigest : Option D := none
  observedAt : String := ""
  observedMonotonic : Nat := 0
  generation : Nat := 0
  failedGeneration : Option Nat := none
  failedInputDigest : Option D := none

/-- How a scan ended: with a state, an observation time and a second reading of the inputs, or with an exception. -/
inductive ScanResult (S D : Type) where
  | completed (state : S) (current : D) (observedAt : String)
  | runtimeError (message : String)
  | failed (message : String)

/-- What a scan brings back to the cache. -/
inductive Outcome (S : Type) where
  | observed (state : S) (observedAt : String) (observedMonotonic : Nat)
  | runtimeError (message : String)
  | failed (message : String)

/-- A call between its steps, with its age bound, its input digest and the number of the step at which it entered. -/
inductive Phase (S D : Type) where
  | idle
  | called (maximum : Nat) (digest : D) (deadline : Nat)
  | waiting (maximum : Nat) (digest : D) (deadline observedGeneration enteredAt : Nat)
  | scanning (maximum : Nat) (digest : D) (enteredAt : Nat)
  | scanned (maximum : Nat) (digest : D) (enteredAt : Nat) (outcome : Outcome S)
  | returned (maximum : Nat) (digest : D) (enteredAt readAt : Nat) (observation : Observation S D)
  | raised (message : String)

/-- A state that was published: the inputs it was computed for, when its scan was over and at which step it came in. -/
structure Scan (S D : Type) where
  state : S
  digest : D
  observedMonotonic : Nat
  publishedAt : Nat

/-- The cache and its callers. The steps so far and what was published, latest first, are kept for the record only. -/
structure System (S D : Type) where
  cache : Cache S D := {}
  callers : Nat → Phase S D := fun _ => .idle
  clock : Nat := 0
  steps : Nat := 0
  published : List (Scan S D) := []

inductive Event (S D : Type) where
  | elapse (duration : Nat)
  | call (caller : Nat) (maxAge : Json) (digest : D)
  | enter (caller pause : Nat)
  | wake (caller pause : Nat)
  | finish (caller : Nat) (result : ScanResult S D)
  | settle (caller : Nat)

inductive Verdict (S D : Type) where
  | raise (message : String)
  | reply (observation : Observation S D)
  | scan
  | wait

def inputChanged : String := "OBSERVATION_INPUT_CHANGED: retry fast observe"

/-- Round to milliseconds, halves to even. -/
def toMs (age : Nat) : Nat :=
  let ms := age / 1000000
  let rest := age % 1000000
  if 500000 < rest ∨ (rest = 500000 ∧ ms % 2 = 1) then ms + 1 else ms

variable {S D : Type}

section model

variable [DecidableEq D]

/-- The state in the slot, if it is for these inputs. -/
def held (cache : Cache S D) (digest : D) : Option S := if cache.inputDigest = some digest then cache.state else none

def shown (cache : Cache S D) (state : S) (maximum : Nat) (digest : D) (age : Nat) (freshness : Freshness) : Observation S D where
  state := state
  inputDigest := digest
  observedAt := cache.observedAt
  ageMs := toMs age
  maxAgeSeconds := maximum
  freshness := freshness

/-- One round of the loop in which a caller looks at the cache. The clock is read again for what is left of the wait. -/
def look (cache : Cache S D) (clock pause maximum : Nat) (digest : D) (deadline observedGeneration : Nat) : Verdict S D :=
  if cache.failedGeneration.any (observedGeneration ≤ ·) && decide (cache.failedInputDigest = some digest) then .raise inputChanged
  else
    let age := clock - cache.observedMonotonic
    match held cache digest with
    | some state =>
        if 0 < maximum ∧ age ≤ maximum * second then .reply (shown cache state maximum digest age .boundedCache)
        else if observedGeneration < cache.generation then .reply (shown cache state maximum digest age .freshScan)
        else if !cache.refreshing then .scan
        else if deadline ≤ clock + pause then .raise "fast observation refresh did not complete"
        else .wait
    | none =>
        if !cache.refreshing then .scan
        else if deadline ≤ clock + pause then .raise "fast observation refresh did not complete"
        else .wait

def put (system : System S D) (caller : Nat) (phase : Phase S D) : System S D :=
  { system with callers := Function.update system.callers caller phase }

/-- A caller goes the way that its look at the cache has shown. -/
def follow (system : System S D) (caller pause maximum : Nat) (digest : D) (deadline observedGeneration enteredAt : Nat) : System S D :=
  match look system.cache system.clock pause maximum digest deadline observedGeneration with
  | .raise message => put system caller (.raised message)
  | .reply observation => put system caller (.returned maximum digest enteredAt system.clock observation)
  | .scan => put { system with cache := { system.cache with refreshing := true } } caller (.scanning maximum digest enteredAt)
  | .wait => put system caller (.waiting maximum digest deadline observedGeneration enteredAt)

def outcomeOf (digest : D) (clock : Nat) : ScanResult S D → Outcome S
  | .completed state current observedAt =>
      if current ≠ digest then .runtimeError inputChanged else .observed state observedAt clock
  | .runtimeError message => .runtimeError message
  | .failed message => .failed message

/-- The message of a scan that was given up because its inputs changed. -/
def saysChanged (message : String) : Bool := Text.hasPrefix "OBSERVATION_INPUT_CHANGED:" message

def givenUp (cache : Cache S D) (digest : D) (message : String) : Cache S D :=
  if saysChanged message then
    { cache with failedGeneration := some cache.generation, failedInputDigest := some digest,
                 generation := cache.generation + 1, refreshing := false }
  else { cache with refreshing := false }

/-- The scanner takes the lock again and tells the cache. -/
def settle (system : System S D) (caller maximum : Nat) (digest : D) (enteredAt : Nat) : Outcome S → System S D
  | .observed state observedAt observedMonotonic =>
      let cache : Cache S D :=
        { system.cache with state := some state, inputDigest := some digest, observedAt := observedAt,
                            observedMonotonic := observedMonotonic, generation := system.cache.generation + 1, refreshing := false }
      put { system with cache := cache, published := ⟨state, digest, observedMonotonic, system.steps⟩ :: system.published } caller
        (.returned maximum digest enteredAt system.clock (shown cache state maximum digest 0 .freshScan))
  | .runtimeError message => put { system with cache := givenUp system.cache digest message } caller (.raised message)
  | .failed message => put { system with cache := { system.cache with refreshing := false } } caller (.raised message)

/-- An event that its caller is not ready for changes nothing. -/
def act (system : System S D) : Event S D → System S D
  | .elapse duration => { system with clock := system.clock + duration }
  | .call caller maxAge digest =>
      match system.callers caller with
      | .idle =>
          match validateMaxAge maxAge with
          | .ok maximum => put system caller (.called maximum digest (system.clock + waitSeconds * second))
          | .error message => put system caller (.raised message)
      | _ => system
  | .enter caller pause =>
      match system.callers caller with
      | .called maximum digest deadline =>
          follow system caller pause maximum digest deadline system.cache.generation system.steps
      | _ => system
  | .wake caller pause =>
      match system.callers caller with
      | .waiting maximum digest deadline observedGeneration enteredAt =>
          follow system caller pause maximum digest deadline observedGeneration enteredAt
      | _ => system
  | .finish caller result =>
      match system.callers caller with
      | .scanning maximum digest enteredAt =>
          put system caller (.scanned maximum digest enteredAt (outcomeOf digest system.clock result))
      | _ => system
  | .settle caller =>
      match system.callers caller with
      | .scanned maximum digest enteredAt outcome => settle system caller maximum digest enteredAt outcome
      | _ => system

def step (system : System S D) (event : Event S D) : System S D :=
  { act system event with steps := system.steps + 1 }

end model

/-! What a step does. -/

/-- A caller whose look at the cache comes next, on entering or on waking. -/
def Looks (system : System S D) (caller maximum : Nat) (digest : D) (deadline observedGeneration enteredAt : Nat) : Prop :=
  (system.callers caller = .called maximum digest deadline ∧ observedGeneration = system.cache.generation ∧
    enteredAt = system.steps) ∨
  system.callers caller = .waiting maximum digest deadline observedGeneration enteredAt

/-- A scan for the inputs of a caller, not older than the generation that it has seen, failed because they had changed. -/
def Failed (cache : Cache S D) (digest : D) (observedGeneration : Nat) : Prop :=
  (∃ failed ∈ cache.failedGeneration, observedGeneration ≤ failed) ∧ cache.failedInputDigest = some digest

/-- A call that runs a scan, or has run one that the cache has not been told of. -/
def Phase.refreshes : Phase S D → Bool
  | .scanning .. => true
  | .scanned .. => true
  | _ => false

/-- Phases outside the loop, without a scan and without an observation. -/
def Phase.plain : Phase S D → Bool
  | .called .. => true
  | .raised .. => true
  | _ => false

inductive Moves (system : System S D) (event : Event S D) : System S D → Prop where
  | stays : Moves system event system
  | elapse (duration : Nat) : Moves system event { system with clock := system.clock + duration }
  | leave (caller : Nat) (phase : Phase S D) (idle : (system.callers caller).refreshes = false) (plain : phase.plain = true) :
      Moves system event (put system caller phase)
  | wait (caller maximum : Nat) (digest : D) (deadline observedGeneration enteredAt : Nat)
      (looks : Looks system caller maximum digest deadline observedGeneration enteredAt) (busy : system.cache.refreshing = true) :
      Moves system event (put system caller (.waiting maximum digest deadline observedGeneration enteredAt))
  | reply (caller maximum : Nat) (digest : D) (deadline observedGeneration enteredAt : Nat) (state : S) (freshness : Freshness)
      (looks : Looks system caller maximum digest deadline observedGeneration enteredAt)
      (slot : system.cache.state = some state ∧ system.cache.inputDigest = some digest)
      (good : ¬Failed system.cache digest observedGeneration)
      (timely : system.clock - system.cache.observedMonotonic ≤ maximum * second ∨ observedGeneration < system.cache.generation) :
      Moves system event (put system caller (.returned maximum digest enteredAt system.clock
        (shown system.cache state maximum digest (system.clock - system.cache.observedMonotonic) freshness)))
  | scan (caller maximum : Nat) (digest : D) (deadline observedGeneration enteredAt : Nat)
      (looks : Looks system caller maximum digest deadline observedGeneration enteredAt) (free : system.cache.refreshing = false) :
      Moves system event (put { system with cache := { system.cache with refreshing := true } } caller (.scanning maximum digest enteredAt))
  | finish (caller maximum : Nat) (digest : D) (enteredAt : Nat) (outcome : Outcome S)
      (ran : system.callers caller = .scanning maximum digest enteredAt) :
      Moves system event (put system caller (.scanned maximum digest enteredAt outcome))
  | settle (caller maximum : Nat) (digest : D) (enteredAt : Nat) (outcome : Outcome S)
      (told : event = .settle caller) (ended : system.callers caller = .scanned maximum digest enteredAt outcome) :
      Moves system event (FastObservation.settle system caller maximum digest enteredAt outcome)

theorem Looks.idle {system : System S D} {caller maximum : Nat} {digest : D} {deadline observedGeneration enteredAt : Nat}
    (looks : Looks system caller maximum digest deadline observedGeneration enteredAt) :
    (system.callers caller).refreshes = false := by
  obtain ⟨phase, -, -⟩ | phase := looks <;> rw [phase] <;> rfl

section moves

variable [DecidableEq D]

theorem held_eq_some {cache : Cache S D} {digest : D} {state : S} :
    held cache digest = some state ↔ cache.state = some state ∧ cache.inputDigest = some digest := by
  unfold held
  split
  next same => simp [same]
  next other => simp [other]

theorem failed_iff {cache : Cache S D} {digest : D} {observedGeneration : Nat} :
    (cache.failedGeneration.any (observedGeneration ≤ ·) && decide (cache.failedInputDigest = some digest)) = true ↔
      Failed cache digest observedGeneration := by
  rw [Bool.and_eq_true, decide_eq_true_eq, Option.any_eq_true, Failed]
  simp

theorem moves_follow {system : System S D} {event : Event S D} {caller pause maximum : Nat} {digest : D} {deadline observedGeneration enteredAt : Nat}
    (looks : Looks system caller maximum digest deadline observedGeneration enteredAt) :
    Moves system event (follow system caller pause maximum digest deadline observedGeneration enteredAt) := by
  rw [follow, look]
  by_cases failed : Failed system.cache digest observedGeneration
  · rw [if_pos (failed_iff.mpr failed)]
    exact .leave caller _ looks.idle rfl
  rw [if_neg (fun found => failed (failed_iff.mp found))]
  cases slot : held system.cache digest with
  | some state =>
    dsimp only
    split_ifs with young later free late
    · exact .reply caller maximum digest deadline observedGeneration enteredAt state _ looks (held_eq_some.mp slot) failed (.inl young.2)
    · exact .reply caller maximum digest deadline observedGeneration enteredAt state _ looks (held_eq_some.mp slot) failed (.inr later)
    · exact .scan caller maximum digest deadline observedGeneration enteredAt looks (by simpa using free)
    · exact .leave caller _ looks.idle rfl
    · exact .wait caller maximum digest deadline observedGeneration enteredAt looks (by simpa using free)
  | none =>
    dsimp only
    split_ifs with free late
    · exact .scan caller maximum digest deadline observedGeneration enteredAt looks (by simpa using free)
    · exact .leave caller _ looks.idle rfl
    · exact .wait caller maximum digest deadline observedGeneration enteredAt looks (by simpa using free)

theorem moves_act (system : System S D) (event : Event S D) : Moves system event (act system event) := by
  cases event with
  | elapse duration => exact .elapse duration
  | call caller maxAge digest =>
    cases phase : system.callers caller with
    | idle =>
      have idle : (system.callers caller).refreshes = false := by rw [phase]; rfl
      cases checked : validateMaxAge maxAge with
      | ok maximum => simpa only [act, phase, checked] using .leave caller _ idle rfl
      | error message => simpa only [act, phase, checked] using .leave caller _ idle rfl
    | _ => simpa only [act, phase] using .stays
  | enter caller pause =>
    cases phase : system.callers caller with
    | called maximum digest deadline => simpa only [act, phase] using moves_follow (.inl ⟨phase, rfl, rfl⟩)
    | _ => simpa only [act, phase] using .stays
  | wake caller pause =>
    cases phase : system.callers caller with
    | waiting maximum digest deadline observedGeneration enteredAt => simpa only [act, phase] using moves_follow (.inr phase)
    | _ => simpa only [act, phase] using .stays
  | finish caller result =>
    cases phase : system.callers caller with
    | scanning maximum digest enteredAt => simpa only [act, phase] using .finish caller maximum digest enteredAt _ phase
    | _ => simpa only [act, phase] using .stays
  | settle caller =>
    cases phase : system.callers caller with
    | scanned maximum digest enteredAt outcome =>
      simpa only [act, phase] using .settle caller maximum digest enteredAt outcome rfl phase
    | _ => simpa only [act, phase] using .stays

end moves

/-! What every run keeps. -/

/-- One scan at most, which the flag of the cache announces. -/
structure SingleFlight (system : System S D) : Prop where
  single : ∀ a b, (system.callers a).refreshes = true → (system.callers b).refreshes = true → a = b
  flag : system.cache.refreshing = true ↔ ∃ a, (system.callers a).refreshes = true

/-- The step at which a call that is still in the loop, or scans, has entered. -/
def Phase.entered : Phase S D → Option Nat
  | .waiting _ _ _ _ enteredAt => some enteredAt
  | .scanning _ _ enteredAt => some enteredAt
  | .scanned _ _ enteredAt _ => some enteredAt
  | _ => none

/-- The slot holds what was published last, and numbers of steps and generations are behind the present ones. -/
structure Recorded (system : System S D) : Prop where
  state : system.cache.state = system.published.head?.map Scan.state
  digest : system.cache.inputDigest = system.published.head?.map Scan.digest
  observed : ∀ scan ∈ system.published.head?, system.cache.observedMonotonic = scan.observedMonotonic
  failed : ∀ failed ∈ system.cache.failedGeneration, failed < system.cache.generation
  entered : ∀ caller, ∀ enteredAt ∈ (system.callers caller).entered, enteredAt < system.steps
  seen : ∀ caller maximum digest deadline observedGeneration enteredAt,
    system.callers caller = .waiting maximum digest deadline observedGeneration enteredAt →
      observedGeneration ≤ system.cache.generation

theorem put_refreshes {system : System S D} {caller : Nat} {phase : Phase S D} (other : Nat) :
    ((put system caller phase).callers other).refreshes = if other = caller then phase.refreshes else (system.callers other).refreshes := by
  by_cases same : other = caller
  · subst same
    simp [put]
  · simp [put, same]

/-- Phases that run no scan come and go without touching the flight. -/
theorem SingleFlight.put_idle {system : System S D} (flight : SingleFlight system) {caller : Nat} {phase : Phase S D}
    (before : (system.callers caller).refreshes = false) (after : phase.refreshes = false) :
    SingleFlight (put system caller phase) := by
  have same (other : Nat) : ((put system caller phase).callers other).refreshes = (system.callers other).refreshes := by
    rw [put_refreshes]
    split
    next here => rw [here, before, after]
    next => rfl
  refine ⟨fun a b => ?_, ?_⟩
  · rw [same, same]
    exact flight.single a b
  · simp only [same]
    exact flight.flag

/-- The only scan comes to its end. -/
theorem SingleFlight.put_last {system : System S D} (flight : SingleFlight system) {caller : Nat} {phase : Phase S D}
    {cache : Cache S D} {published : List (Scan S D)} (last : (system.callers caller).refreshes = true)
    (after : phase.refreshes = false) (free : cache.refreshing = false) :
    SingleFlight (put { system with cache := cache, published := published } caller phase) := by
  have none_ (other : Nat) :
      ((put { system with cache := cache, published := published } caller phase).callers other).refreshes = false := by
    rw [put_refreshes]
    split
    next => exact after
    next differ =>
      cases running : (system.callers other).refreshes with
      | false => rfl
      | true => exact absurd (flight.single other caller running last) differ
  refine ⟨fun a b first => ?_, ?_⟩
  · rw [none_] at first
    cases first
  · simp only [none_, Bool.false_eq_true, exists_false, iff_false]
    change cache.refreshing ≠ true
    rw [free]
    exact Bool.false_ne_true

theorem settle_eq (system : System S D) (caller maximum : Nat) (digest : D) (enteredAt : Nat) (outcome : Outcome S) :
    ∃ cache published phase, settle system caller maximum digest enteredAt outcome =
      put { system with cache := cache, published := published } caller phase ∧ phase.refreshes = false ∧
        cache.refreshing = false ∧ phase.entered = none := by
  cases outcome with
  | observed state observedAt observedMonotonic => exact ⟨_, _, _, rfl, rfl, rfl, rfl⟩
  | runtimeError message =>
    refine ⟨_, _, _, rfl, rfl, ?_, rfl⟩
    unfold givenUp
    split <;> rfl
  | failed message => exact ⟨_, _, _, rfl, rfl, rfl, rfl⟩

theorem Moves.flight {system after : System S D} {event : Event S D} (moves : Moves system event after) (flight : SingleFlight system) : SingleFlight after := by
  cases moves with
  | stays => exact flight
  | elapse duration => exact ⟨flight.single, flight.flag⟩
  | leave caller phase idle plain =>
    refine flight.put_idle idle ?_
    cases phase <;> first | rfl | cases plain
  | wait caller maximum digest deadline observedGeneration enteredAt looks busy => exact flight.put_idle looks.idle rfl
  | reply caller maximum digest deadline observedGeneration enteredAt state freshness looks slot good timely =>
    exact flight.put_idle looks.idle rfl
  | scan caller maximum digest deadline observedGeneration enteredAt looks free =>
    have none_ (other : Nat) : (system.callers other).refreshes = false := by
      cases running : (system.callers other).refreshes with
      | false => rfl
      | true =>
        rw [flight.flag.mpr ⟨other, running⟩] at free
        cases free
    have only (other : Nat) : ((put { system with cache := { system.cache with refreshing := true } } caller
        (.scanning maximum digest enteredAt)).callers other).refreshes = decide (other = caller) := by
      rw [put_refreshes]
      by_cases same : other = caller
      · simp [same, Phase.refreshes]
      · simp [same, none_]
    refine ⟨fun a b first second => ?_, iff_of_true rfl ⟨caller, by rw [only]; simp⟩⟩
    rw [only] at first second
    rw [of_decide_eq_true first, of_decide_eq_true second]
  | finish caller maximum digest enteredAt outcome ran =>
    have same (other : Nat) : ((put system caller (.scanned maximum digest enteredAt outcome)).callers other).refreshes =
        (system.callers other).refreshes := by
      rw [put_refreshes]
      split
      next here => rw [here, ran]; rfl
      next => rfl
    refine ⟨fun a b => ?_, ?_⟩
    · rw [same, same]
      exact flight.single a b
    · simp only [same]
      exact flight.flag
  | settle caller maximum digest enteredAt outcome told ended =>
    obtain ⟨cache, published, phase, same, idle, free, -⟩ := settle_eq system caller maximum digest enteredAt outcome
    rw [same]
    exact flight.put_last (by rw [ended]; rfl) idle free

/-- A caller in the loop that sees a later generation, with the slot holding its inputs, has either waited for what is in
the slot or is told of a failed scan. -/
def Awaited (system : System S D) : Prop :=
  ∀ caller maximum digest deadline observedGeneration enteredAt,
    system.callers caller = .waiting maximum digest deadline observedGeneration enteredAt →
      observedGeneration < system.cache.generation → system.cache.inputDigest = some digest →
        (∃ scan ∈ system.published.head?, enteredAt < scan.publishedAt) ∨ Failed system.cache digest observedGeneration

/-- What a caller got was computed for its inputs, and is within its age bound or came in after the caller entered. -/
def Served (published : List (Scan S D)) : Phase S D → Prop
  | .returned maximum digest enteredAt readAt observation =>
      observation.inputDigest = digest ∧ ∃ scan ∈ published, scan.state = observation.state ∧ scan.digest = digest ∧
        (readAt - scan.observedMonotonic ≤ maximum * second ∨ enteredAt < scan.publishedAt)
  | _ => True

structure Sound (system : System S D) : Prop where
  recorded : Recorded system
  awaited : Awaited system
  served : ∀ caller, Served system.published (system.callers caller)

/-- A scan that is given up because its inputs changed leaves no caller behind that has waited, since the slot was filled,
for the inputs of the slot, if these are others than those of the scan. -/
def Calm (system : System S D) : Event S D → Prop
  | .settle caller =>
      match system.callers caller with
      | .scanned _ digest _ (.runtimeError message) =>
          saysChanged message = true → ∀ other maximum own deadline observedGeneration enteredAt,
            system.callers other = .waiting maximum own deadline observedGeneration enteredAt →
              system.cache.inputDigest = some own → own = digest ∨ ∃ scan ∈ system.published.head?, enteredAt < scan.publishedAt
      | _ => True
  | _ => True

theorem served_grown {published : List (Scan S D)} {scan : Scan S D} {phase : Phase S D} (served : Served published phase) :
    Served (scan :: published) phase := by
  cases phase with
  | returned maximum digest enteredAt readAt observation =>
    obtain ⟨own, found, member, rest⟩ := served
    exact ⟨own, found, List.mem_cons_of_mem _ member, rest⟩
  | _ => trivial

theorem served_put (system : System S D) {caller : Nat} {phase : Phase S D}
    (served : ∀ other, Served system.published (system.callers other)) (own : Served system.published phase) :
    ∀ other, Served (put system caller phase).published ((put system caller phase).callers other) := by
  intro other
  by_cases same : other = caller
  · subst same
    simpa [put] using own
  · simpa [put, same] using served other

theorem entered_put (system : System S D) {caller : Nat} {phase : Phase S D}
    (entered : ∀ other, ∀ enteredAt ∈ (system.callers other).entered, enteredAt < system.steps)
    (own : ∀ enteredAt ∈ phase.entered, enteredAt ≤ system.steps) :
    ∀ other, ∀ enteredAt ∈ ((put system caller phase).callers other).entered, enteredAt < system.steps + 1 := by
  intro other enteredAt member
  by_cases same : other = caller
  · subst same
    simp only [put, Function.update_self] at member
    exact Nat.lt_succ_of_le (own enteredAt member)
  · simp only [put, Function.update_of_ne same] at member
    exact Nat.lt_succ_of_lt (entered other enteredAt member)

/-- Who waits after one caller has moved. -/
theorem waiting_put {system : System S D} {caller other maximum : Nat} {phase : Phase S D} {digest : D}
    {deadline observedGeneration enteredAt : Nat}
    (waits : (put system caller phase).callers other = .waiting maximum digest deadline observedGeneration enteredAt) :
    phase = .waiting maximum digest deadline observedGeneration enteredAt ∨
      system.callers other = .waiting maximum digest deadline observedGeneration enteredAt := by
  by_cases same : other = caller
  · subst same
    simp only [put, Function.update_self] at waits
    exact .inl waits
  · simp only [put, Function.update_of_ne same] at waits
    exact .inr waits

theorem Looks.entered {system : System S D} (recorded : Recorded system) {caller maximum : Nat} {digest : D}
    {deadline observedGeneration enteredAt : Nat}
    (looks : Looks system caller maximum digest deadline observedGeneration enteredAt) :
    enteredAt ≤ system.steps ∧ observedGeneration ≤ system.cache.generation := by
  obtain ⟨-, rfl, rfl⟩ | phase := looks
  · exact ⟨le_rfl, le_rfl⟩
  · exact ⟨(recorded.entered caller enteredAt (by rw [phase]; rfl)).le, recorded.seen _ _ _ _ _ _ phase⟩

/-- A caller that moves while the cache stays as it is. -/
theorem Sound.moved {system : System S D} (sound : Sound system) (caller : Nat) (phase : Phase S D)
    (entered : ∀ enteredAt ∈ phase.entered, enteredAt ≤ system.steps) (served : Served system.published phase)
    (waits : ∀ maximum digest deadline observedGeneration enteredAt,
      phase = .waiting maximum digest deadline observedGeneration enteredAt →
        Looks system caller maximum digest deadline observedGeneration enteredAt) (refreshing : Bool) :
    Sound { put { system with cache := { system.cache with refreshing := refreshing } } caller phase with
      steps := system.steps + 1 } where
  recorded := {
    state := sound.recorded.state
    digest := sound.recorded.digest
    observed := sound.recorded.observed
    failed := sound.recorded.failed
    entered := entered_put { system with cache := { system.cache with refreshing := refreshing } }
      sound.recorded.entered entered
    seen := by
      intro other maximum digest deadline observedGeneration enteredAt waiting
      obtain own | old := waiting_put waiting
      · exact (waits _ _ _ _ _ own).entered sound.recorded |>.2
      · exact sound.recorded.seen _ _ _ _ _ _ old }
  awaited := by
    intro other maximum digest deadline observedGeneration enteredAt waiting later slot
    obtain own | old := waiting_put waiting
    · obtain ⟨-, same, -⟩ | phase := waits _ _ _ _ _ own
      · exact absurd later (by rw [same]; exact lt_irrefl _)
      · exact sound.awaited _ _ _ _ _ _ phase later slot
    · exact sound.awaited _ _ _ _ _ _ old later slot
  served := served_put { system with cache := { system.cache with refreshing := refreshing } } sound.served served

/-- The same system one step later. -/
theorem Sound.stays {system : System S D} (sound : Sound system) (clock : Nat) :
    Sound { system with clock := clock, steps := system.steps + 1 } where
  recorded := {
    state := sound.recorded.state
    digest := sound.recorded.digest
    observed := sound.recorded.observed
    failed := sound.recorded.failed
    entered := fun caller enteredAt member => Nat.lt_succ_of_lt (sound.recorded.entered caller enteredAt member)
    seen := sound.recorded.seen }
  awaited := sound.awaited
  served := sound.served

/-- The slot is what was published last. -/
theorem Recorded.last {system : System S D} (recorded : Recorded system) {state : S} {digest : D}
    (slot : system.cache.state = some state ∧ system.cache.inputDigest = some digest) : ∃ scan ∈ system.published.head?,
      scan.state = state ∧ scan.digest = digest ∧ system.cache.observedMonotonic = scan.observedMonotonic := by
  rw [recorded.state, recorded.digest] at slot
  obtain ⟨scan, found, state_⟩ := Option.map_eq_some_iff.mp slot.1
  obtain ⟨other, again, digest_⟩ := Option.map_eq_some_iff.mp slot.2
  obtain rfl : scan = other := Option.some.inj (found.symm.trans again)
  exact ⟨scan, found, state_, digest_, recorded.observed scan found⟩

/-- A publication. -/
theorem Sound.publish {system : System S D} (sound : Sound system) {caller maximum : Nat} {digest : D} {enteredAt : Nat}
    {state : S} {observedAt : String} {observedMonotonic : Nat}
    (ended : system.callers caller = .scanned maximum digest enteredAt (.observed state observedAt observedMonotonic)) :
    Sound { settle system caller maximum digest enteredAt (.observed state observedAt observedMonotonic) with
      steps := system.steps + 1 } where
  recorded := {
    state := rfl
    digest := rfl
    observed := by
      rintro scan ⟨⟩
      rfl
    failed := fun failed member => Nat.lt_succ_of_lt (sound.recorded.failed failed member)
    entered := entered_put { system with published := _ } sound.recorded.entered (by rintro _ ⟨⟩)
    seen := by
      intro other maximum own deadline observedGeneration entered waiting
      obtain never | old := waiting_put waiting
      · cases never
      · exact Nat.le_succ_of_le (sound.recorded.seen _ _ _ _ _ _ old) }
  awaited := by
    intro other maximum own deadline observedGeneration entered waiting _ _
    obtain never | old := waiting_put waiting
    · cases never
    · exact .inl ⟨_, rfl, sound.recorded.entered other entered (by rw [old]; rfl)⟩
  served := by
    refine served_put { system with published := ⟨state, digest, observedMonotonic, system.steps⟩ :: system.published }
      (fun other => served_grown (sound.served other)) ⟨rfl, _, List.mem_cons_self, rfl, rfl, .inr ?_⟩
    exact sound.recorded.entered caller enteredAt (by rw [ended]; rfl)

/-- A scan given up because its inputs changed. -/
theorem Sound.giveUp {system : System S D} (sound : Sound system) {caller : Nat} {digest : D} {message : String}
    (calm : ∀ other maximum own deadline observedGeneration enteredAt,
      system.callers other = .waiting maximum own deadline observedGeneration enteredAt →
        system.cache.inputDigest = some own → own = digest ∨ ∃ scan ∈ system.published.head?, enteredAt < scan.publishedAt) :
    Sound { put { system with cache := { system.cache with
        failedGeneration := some system.cache.generation, failedInputDigest := some digest,
        generation := system.cache.generation + 1, refreshing := false } } caller (.raised message) with steps := system.steps + 1 } where
  recorded := {
    state := sound.recorded.state
    digest := sound.recorded.digest
    observed := sound.recorded.observed
    failed := by
      rintro failed ⟨⟩
      exact Nat.lt_succ_self _
    entered := entered_put { system with cache := _ } sound.recorded.entered (by rintro _ ⟨⟩)
    seen := by
      intro other maximum own deadline observedGeneration entered waiting
      obtain never | old := waiting_put waiting
      · cases never
      · exact Nat.le_succ_of_le (sound.recorded.seen _ _ _ _ _ _ old) }
  awaited := by
    intro other maximum own deadline observedGeneration entered waiting _ slot
    obtain never | old := waiting_put waiting
    · cases never
    · obtain rfl | fresh := calm _ _ _ _ _ _ old slot
      · exact .inr ⟨⟨_, rfl, sound.recorded.seen _ _ _ _ _ _ old⟩, rfl⟩
      · exact .inl fresh
  served := served_put { system with cache := _ } sound.served trivial

/-- What one step keeps, if it is calm. -/
theorem Moves.sound {system after : System S D} {event : Event S D} (moves : Moves system event after) (sound : Sound system)
    (calm : Calm system event) : Sound { after with steps := system.steps + 1 } := by
  cases moves with
  | stays => exact sound.stays system.clock
  | elapse duration => exact sound.stays _
  | leave caller phase idle plain =>
    cases phase with
    | called maximum digest deadline =>
      exact sound.moved caller (.called maximum digest deadline) (by rintro _ ⟨⟩) trivial (by rintro _ _ _ _ _ ⟨⟩)
        system.cache.refreshing
    | raised message =>
      exact sound.moved caller (.raised message) (by rintro _ ⟨⟩) trivial (by rintro _ _ _ _ _ ⟨⟩) system.cache.refreshing
    | _ => cases plain
  | wait caller maximum digest deadline observedGeneration enteredAt looks busy =>
    refine sound.moved caller (.waiting maximum digest deadline observedGeneration enteredAt) ?_ trivial ?_ system.cache.refreshing
    · rintro _ ⟨⟩
      exact (looks.entered sound.recorded).1
    · rintro _ _ _ _ _ ⟨⟩
      exact looks
  | reply caller maximum digest deadline observedGeneration enteredAt state freshness looks slot good timely =>
    obtain ⟨scan, last, state_, digest_, observed⟩ := sound.recorded.last slot
    refine sound.moved caller
      (.returned maximum digest enteredAt system.clock
        (shown system.cache state maximum digest (system.clock - system.cache.observedMonotonic) freshness))
      (by rintro _ ⟨⟩) ⟨rfl, scan, List.mem_of_mem_head? last, state_, digest_, ?_⟩ (by rintro _ _ _ _ _ ⟨⟩)
      system.cache.refreshing
    obtain young | later := timely
    · exact .inl (observed ▸ young)
    · obtain ⟨-, same, -⟩ | waiting := looks
      · exact absurd later (by rw [same]; exact lt_irrefl _)
      · obtain ⟨other, again, fresh⟩ | failed := sound.awaited _ _ _ _ _ _ waiting later slot.2
        · obtain rfl : scan = other := Option.some.inj (last.symm.trans again)
          exact .inr fresh
        · exact absurd failed good
  | scan caller maximum digest deadline observedGeneration enteredAt looks free =>
    refine sound.moved caller (.scanning maximum digest enteredAt) ?_ trivial (by rintro _ _ _ _ _ ⟨⟩) true
    rintro _ ⟨⟩
    exact (looks.entered sound.recorded).1
  | finish caller maximum digest enteredAt outcome ran =>
    refine sound.moved caller (.scanned maximum digest enteredAt outcome) ?_ trivial (by rintro _ _ _ _ _ ⟨⟩) system.cache.refreshing
    rintro _ ⟨⟩
    exact (sound.recorded.entered caller enteredAt (by rw [ran]; rfl)).le
  | settle caller maximum digest enteredAt outcome told ended =>
    cases outcome with
    | observed state observedAt observedMonotonic => exact sound.publish ended
    | runtimeError message =>
      simp only [told, Calm, ended] at calm
      rw [FastObservation.settle, givenUp]
      split
      next changed => exact sound.giveUp (calm changed)
      next => exact sound.moved caller (.raised message) (by rintro _ ⟨⟩) trivial (by rintro _ _ _ _ _ ⟨⟩) false
    | failed message => exact sound.moved caller (.raised message) (by rintro _ ⟨⟩) trivial (by rintro _ _ _ _ _ ⟨⟩) false

structure Kept (system : System S D) : Prop where
  flight : SingleFlight system
  sound : Sound system

theorem step_flight [DecidableEq D] {system : System S D} (flight : SingleFlight system) (event : Event S D) :
    SingleFlight (step system event) :=
  have moved := (moves_act system event).flight flight
  ⟨moved.single, moved.flag⟩

theorem step_kept [DecidableEq D] (system : System S D) (event : Event S D) (kept : Kept system) (calm : Calm system event) :
    Kept (step system event) :=
  ⟨step_flight kept.flight event, (moves_act system event).sound kept.sound calm⟩

theorem begin_kept : Kept ({} : System S D) where
  flight := {
    single := by
      rintro _ _ ⟨⟩
    flag := by simp [Phase.refreshes] }
  sound := {
    recorded := ⟨rfl, rfl, by rintro _ ⟨⟩, by rintro _ ⟨⟩, (by rintro _ _ ⟨⟩), by rintro _ _ _ _ _ _ ⟨⟩⟩
    awaited := by rintro _ _ _ _ _ _ ⟨⟩
    served := fun _ => trivial }

/-- A step in which the cache is told of a scan that brought no state. -/
def Fails (system : System S D) : Event S D → Prop
  | .settle caller => ∃ maximum digest enteredAt message,
      system.callers caller = .scanned maximum digest enteredAt (.runtimeError message) ∨
      system.callers caller = .scanned maximum digest enteredAt (.failed message)
  | _ => False

/-- A failed scan leaves the slot as it was, and no scan behind. -/
structure Harmless (system after : System S D) : Prop where
  published : after.published = system.published
  slot : after.cache.state = system.cache.state ∧ after.cache.inputDigest = system.cache.inputDigest ∧
    after.cache.observedAt = system.cache.observedAt ∧ after.cache.observedMonotonic = system.cache.observedMonotonic
  free : after.cache.refreshing = false

theorem givenUp_free (cache : Cache S D) (digest : D) (message : String) : (givenUp cache digest message).refreshing = false := by
  unfold givenUp
  split <;> rfl

theorem givenUp_slot (cache : Cache S D) (digest : D) (message : String) :
    (givenUp cache digest message).state = cache.state ∧ (givenUp cache digest message).inputDigest = cache.inputDigest ∧
      (givenUp cache digest message).observedAt = cache.observedAt ∧
      (givenUp cache digest message).observedMonotonic = cache.observedMonotonic := by
  unfold givenUp
  split <;> exact ⟨rfl, rfl, rfl, rfl⟩

theorem step_harmless [DecidableEq D] (system : System S D) (event : Event S D) (fails : Fails system event) :
    Harmless system (step system event) := by
  cases event with
  | settle caller =>
    obtain ⟨maximum, digest, enteredAt, message, ended | ended⟩ := fails
    · simp only [step, act, ended]
      exact ⟨rfl, givenUp_slot _ _ _, givenUp_free _ _ _⟩
    · simp only [step, act, ended]
      exact ⟨rfl, ⟨rfl, rfl, rfl, rfl⟩, rfl⟩
  | _ => cases fails

/-- While no scan runs, a call that enters is answered from the slot, if that is young enough for it, or scans. -/
def Proceeds [DecidableEq D] (system : System S D) : Prop :=
  system.cache.refreshing = false → ∀ caller pause maximum digest deadline,
    system.callers caller = .called maximum digest deadline →
      (step system (.enter caller pause)).callers caller = .scanning maximum digest system.steps ∨
      ∃ observation, (step system (.enter caller pause)).callers caller =
        .returned maximum digest system.steps system.clock observation ∧
          observation.freshness = .boundedCache ∧ system.clock - system.cache.observedMonotonic ≤ maximum * second

theorem Recorded.proceeds [DecidableEq D] {system : System S D} (recorded : Recorded system) : Proceeds system := by
  intro free caller pause maximum digest deadline called
  have good : ¬Failed system.cache digest system.cache.generation := by
    rintro ⟨⟨failed, known, behind⟩, -⟩
    exact absurd (recorded.failed failed known) (not_lt_of_ge behind)
  simp only [step, act, called]
  rw [follow, look, if_neg (fun found => good (failed_iff.mp found))]
  cases slot : held system.cache digest with
  | some state =>
    dsimp only
    rw [free]
    split_ifs with young later
    · exact .inr ⟨_, Function.update_self .., rfl, young.2⟩
    · exact absurd later (lt_irrefl _)
    · exact .inl (Function.update_self ..)
    · exact absurd rfl ‹_›
    · exact absurd rfl ‹_›
  | none =>
    simp only [free, Bool.not_false, if_true]
    exact .inl (Function.update_self ..)

/-- What callers of one cache can rely on in every run of calm steps: one scan at a time, an observation that is theirs and
timely, and failed scans that leave the slot alone and the way free for whoever comes next. -/
theorem observe_run [DecidableEq D] (events : List (Event S D)) (calm : Run.Along step Calm ({} : System S D) events) :
    let system := Run.final step ({} : System S D) events
    (∀ a b, (system.callers a).refreshes = true → (system.callers b).refreshes = true → a = b) ∧
      (∀ caller, Served system.published (system.callers caller)) ∧
      Run.Steps step (fun before event after => Fails before event → Harmless before after) ({} : System S D) events ∧
      Proceeds system := by
  have kept := Run.invariant step step_kept events _ begin_kept calm
  refine ⟨kept.flight.single, kept.sound.served, ?_, kept.sound.recorded.proceeds⟩
  exact Run.steps_of_invariant step step_kept (fun before event _ _ => step_harmless before event) events _ begin_kept calm

/-- One caller fills the slot; its successor scans for other inputs while a third one waits for the first ones. -/
def crossing : List (Event Nat String) :=
  [.call 0 (.int 0) "A", .enter 0 0, .finish 0 (.completed 1 "A" "10:00"), .settle 0, .elapse (1000 * second),
   .call 1 (.int 0) "B", .enter 1 0, .call 2 (.int 0) "A", .enter 2 0]

theorem observe_crossing :
    (Run.final step ({} : System Nat String) (crossing ++ [.finish 1 (.completed 2 "B" "10:17"), .settle 1, .wake 2 0])).callers 2 =
        .scanning 0 "A" 8 ∧
      ∀ caller, Served (Run.final step ({} : System Nat String)
          (crossing ++ [.finish 1 (.completed 2 "B" "10:17"), .settle 1, .wake 2 0])).published
        ((Run.final step ({} : System Nat String)
          (crossing ++ [.finish 1 (.completed 2 "B" "10:17"), .settle 1, .wake 2 0])).callers caller) := by
  refine ⟨by rfl, (observe_run _ ?_).2.1⟩
  exact ⟨trivial, trivial, trivial, trivial, trivial, trivial, trivial, trivial, trivial, trivial, trivial, trivial, trivial⟩

/-- When that scan is given up instead, the third caller gets what was in the slot before it came. -/
theorem given_up_scan_serves_old_state :
    ¬ ∀ caller, Served (Run.final step ({} : System Nat String)
          (crossing ++ [.finish 1 (.completed 2 "A" "10:17"), .settle 1, .wake 2 0])).published
        ((Run.final step ({} : System Nat String)
          (crossing ++ [.finish 1 (.completed 2 "A" "10:17"), .settle 1, .wake 2 0])).callers caller) := by
  intro served
  have own : Served [⟨1, "A", 0, 3⟩] (.returned 0 "A" 8 (1000 * second) ⟨1, "A", "10:00", 1000000, 0, .freshScan⟩) := served 2
  obtain ⟨-, scan, member, -, -, timely⟩ := own
  obtain rfl := List.mem_singleton.mp member
  exact absurd timely (by decide)

end Coordinator.FastObservation
