import Coordinator.Receipts

/-! The life of an intent over whole runs of the store, in which any number of clients and workers
take turns. Every change of a row is one of a few moves, and each of them leads forward. -/

namespace Coordinator.Receipts
open Kit

/-- What a client asks for. -/
inductive Request where
  | heartbeat (owner : String) (leaseMinutes : Int)
  | claim (owner : String) (leaseMinutes : Int) (workerPid workerStartTime : Option Int)
  | promote (note : String)
  | update (owner : String) (changes : Json) (note : String)

inductive Call where
  | enqueue (key task : String) (expectedRevision : Int) (request : Request) (receiptId : String) (now : Nat)
  | claimNext (now : Nat)
  | recordLocalCommit (receiptId commitOid : String) (resultRevision : Int)
  | recordRejection (receiptId errorCode : String)
  | recordAmbiguity (receiptId errorCode : String)
  | recordRemoteObservation (receiptId remoteOid : String) (now : Nat)
  | recordPublicationFailure (receiptId code : String)

def Request.enqueue (store : Store) (key task : String) (expectedRevision : Int) (receiptId : String) (now : Nat) :
    Request → Outcome (Store × Intent)
  | heartbeat owner leaseMinutes => enqueueHeartbeat store key task owner expectedRevision leaseMinutes receiptId now
  | claim owner leaseMinutes workerPid workerStartTime =>
      enqueueClaim store key task owner expectedRevision leaseMinutes receiptId now workerPid workerStartTime
  | promote note => enqueuePromote store key task expectedRevision receiptId now note
  | update owner changes note => enqueueUpdate store key task owner expectedRevision receiptId now changes note

/-- The store after a call and the row that it answers with. -/
def Call.effect (store : Store) : Call → Outcome (Store × Option Intent)
  | enqueue key task expectedRevision request receiptId now =>
      (request.enqueue store key task expectedRevision receiptId now).map (Prod.map id some)
  | claimNext now => Receipts.claimNext store now
  | recordLocalCommit receiptId commitOid resultRevision =>
      (Receipts.recordLocalCommit store receiptId commitOid resultRevision).map (Prod.map id some)
  | recordRejection receiptId errorCode => (Receipts.recordRejection store receiptId errorCode).map (Prod.map id some)
  | recordAmbiguity receiptId errorCode => (Receipts.recordAmbiguity store receiptId errorCode).map (Prod.map id some)
  | recordRemoteObservation receiptId remoteOid now =>
      (Receipts.recordRemoteObservation store receiptId remoteOid now).map (Prod.map id some)
  | recordPublicationFailure receiptId code =>
      (Receipts.recordPublicationFailure store receiptId code).map (Prod.map id some)

def step (store : Store) (call : Call) : Store :=
  match call.effect store with
  | .ok (after, _) => after
  | .error _ => store

/-- The receipt that a call hands out to a worker. -/
def handed (store : Store) : Call → Option String
  | .claimNext now =>
      match claimNext store now with
      | .ok (_, row) => row.map Intent.receiptId
      | .error _ => none
  | _ => none

/-- The receipts that a run hands out, in order. -/
def handedOut (store : Store) : List Call → List String
  | [] => []
  | call :: rest => (handed store call).toList ++ handedOut (step store call) rest

/-- The ways forward from a phase. -/
inductive Phase.Next : Phase → Phase → Prop
  | claimed : Next .queuedLocal .running
  | completed : Next .running .completedLocal
  | rejected : Next .running .rejected
  | ambiguous : Next .running .ambiguous
  | published : Next .completedLocal .publishedRemote

/-- The outcome of the mutation is on record. -/
def Phase.recorded : Phase → Bool
  | .queuedLocal | .running => false
  | .completedLocal | .publishedRemote | .rejected | .ambiguous => true

namespace Intent

/-- What is asked for, fixed when the intent is stored. -/
def request (row : Intent) : String × String × String × String × Int × String × String :=
  (row.receiptId, row.idempotencyKey, row.operation, row.taskId, row.expectedRevision, row.payloadJson, row.inputDigest)

def outcome (row : Intent) : Option String × Option Int × Option String :=
  (row.commitOid, row.resultRevision, row.errorCode)

def remote (row : Intent) : Option String × Option Nat := (row.remoteOid, row.remoteObservedAt)

end Intent

/-- An intent as it is stored at first. -/
structure Born (row : Intent) : Prop where
  phase : row.phase = .queuedLocal
  outcome : row.outcome = (none, none, none)
  remote : row.remote = (none, none)

/-- The changes that a row can undergo. -/
inductive Move : Intent → Intent → Prop
  | stays (row : Intent) : Move row row
  | claimed {row : Intent} (now : Nat) : row.phase = .queuedLocal →
      Move row { row with phase := .running, startedAt := some now }
  | finished {row : Intent} {phase : Phase} {commitOid : Option String} {resultRevision : Option Int}
      {errorCode : Option String} : row.phase = .running → Phase.Next .running phase →
        (∀ n ∈ resultRevision, n = row.expectedRevision + 1) →
          Move row { row with phase, commitOid, resultRevision, errorCode }
  | observed {row : Intent} (oid : String) (now : Nat) : row.phase = .completedLocal →
      Move row { row with
        phase := .publishedRemote, remoteOid := some oid, remoteObservedAt := some now, publicationError := none }
  | noted {row : Intent} (code : String) : row.phase = .completedLocal → Move row { row with publicationError := some code }

/-- What an accepted call does to the store. -/
inductive Accepted (store : Store) : Store → Prop
  | same : Accepted store store
  | added {row : Intent} (born : Born row) (freshId : ∀ other ∈ store.intents, other.receiptId ≠ row.receiptId)
      (freshKey : ∀ other ∈ store.intents, other.idempotencyKey ≠ row.idempotencyKey) :
        Accepted store { store with intents := store.intents ++ [row] }
  | moved {receiptId : String} {phase : Phase} {change : Intent → Intent}
      (fixed : ∀ row, (change row).request = row.request)
      (moves : ∀ row ∈ store.intents, row.receiptId = receiptId → row.phase = phase → Move row (change row)) :
        Accepted store (store.update receiptId phase change)

/-- What an accepted request for an intent does to the store. -/
inductive Inserted (store : Store) : Store → Prop
  | same : Inserted store store
  | added {row : Intent} (born : Born row) (freshId : ∀ other ∈ store.intents, other.receiptId ≠ row.receiptId)
      (freshKey : ∀ other ∈ store.intents, other.idempotencyKey ≠ row.idempotencyKey) :
        Inserted store { store with intents := store.intents ++ [row] }

section calls

variable {store after : Store} {row : Intent}

theorem Inserted.accepted (inserted : Inserted store after) : Accepted store after := by
  cases inserted with
  | same => exact .same
  | added born freshId freshKey => exact .added born freshId freshKey

/-- A stored intent is new, or the one that its key is bound to. -/
theorem enqueue_inserts {key task receiptId : String} {expectedRevision : Int} {now : Nat} {payload : Dict}
    (accepted : enqueue store key task expectedRevision receiptId now payload = .ok (after, row)) :
    Inserted store after := by
  unfold enqueue at accepted
  obtain ⟨-, accepted⟩ := raiseIf_bind_ok.mp accepted
  obtain ⟨-, accepted⟩ := raiseIf_bind_ok.mp accepted
  cases bound : Table.select Intent.idempotencyKey store.intents key with
  | some existing =>
    rw [bound] at accepted
    obtain ⟨-, accepted⟩ := raiseIf_bind_ok.mp accepted
    cases accepted
    exact .same
  | none =>
    rw [bound] at accepted
    obtain ⟨-, accepted⟩ := raiseIf_bind_ok.mp accepted
    obtain ⟨free, accepted⟩ := raiseIf_bind_ok.mp accepted
    cases accepted
    rw [Option.isSome_eq_false_iff, Option.isNone_iff_eq_none] at free
    exact .added ⟨rfl, rfl, rfl⟩ (Table.select_eq_none.mp free) (Table.select_eq_none.mp bound)

theorem request_inserts {key task receiptId : String} {expectedRevision : Int} {now : Nat} {request : Request}
    (accepted : request.enqueue store key task expectedRevision receiptId now = .ok (after, row)) :
    Inserted store after := by
  cases request with
  | heartbeat owner leaseMinutes =>
    obtain ⟨-, accepted⟩ := raiseIf_bind_ok.mp accepted
    obtain ⟨-, accepted⟩ := raiseIf_bind_ok.mp accepted
    obtain ⟨-, accepted⟩ := raiseIf_bind_ok.mp accepted
    exact enqueue_inserts accepted
  | claim owner leaseMinutes workerPid workerStartTime =>
    obtain ⟨-, accepted⟩ := raiseIf_bind_ok.mp accepted
    obtain ⟨-, accepted⟩ := raiseIf_bind_ok.mp accepted
    obtain ⟨-, accepted⟩ := raiseIf_bind_ok.mp accepted
    obtain ⟨-, accepted⟩ := raiseIf_bind_ok.mp accepted
    exact enqueue_inserts accepted
  | promote note =>
    obtain ⟨-, accepted⟩ := raiseIf_bind_ok.mp accepted
    exact enqueue_inserts accepted
  | update owner changes note =>
    obtain ⟨-, accepted⟩ := raiseIf_bind_ok.mp accepted
    cases checked : validateUpdateChanges changes with
    | error fault =>
      rw [checked] at accepted
      cases accepted
    | ok validated =>
      rw [checked] at accepted
      exact enqueue_inserts accepted

/-- What a reservation takes from the queue and hands out. -/
theorem claimNext_eq_ok {now : Nat} {handed : Option Intent} (accepted : claimNext store now = .ok (after, handed)) :
    (handed = none ∧ after = store) ∨ ∃ selected row, handed = some row ∧ selected ∈ store.intents ∧
      selected.phase = .queuedLocal ∧ row ∈ after.intents ∧ row.receiptId = selected.receiptId ∧ row.phase = .running ∧
        after = store.update selected.receiptId .queuedLocal (fun row => { row with phase := .running, startedAt := some now }) := by
  unfold claimNext at accepted
  cases oldest : (store.intents.filter (fun row => row.phase = .queuedLocal)).argmin Intent.createdAt with
  | none =>
    rw [oldest] at accepted
    cases accepted
    exact Or.inl ⟨rfl, rfl⟩
  | some selected =>
    rw [oldest] at accepted
    have queued := List.mem_filter.mp (List.argmin_mem oldest)
    obtain ⟨row, found, accepted⟩ := orRaise_bind_ok.mp accepted
    obtain ⟨active, accepted⟩ := raiseIf_bind_ok.mp accepted
    cases accepted
    obtain ⟨member, named⟩ := Table.select_eq_some found
    exact Or.inr ⟨selected, row, rfl, queued.1, of_decide_eq_true queued.2, member, named, by simpa using active, rfl⟩

theorem claimNext_accepted {now : Nat} {handed : Option Intent} (accepted : claimNext store now = .ok (after, handed)) :
    Accepted store after := by
  rcases claimNext_eq_ok accepted with ⟨-, rfl⟩ | ⟨selected, -, -, -, -, -, -, -, rfl⟩
  · exact .same
  · exact .moved (fun _ => rfl) fun row _ _ queued => .claimed now queued

/-- An outcome is written once; a repeated call leaves it alone. -/
theorem finishRunning_eq_ok {receiptId : String} {phase : Phase} {commitOid : Option String} {resultRevision : Option Int}
    {errorCode : Option String} (accepted : finishRunning store receiptId phase commitOid resultRevision errorCode = .ok (after, row)) :
    ∃ found, store.select receiptId = some found ∧ (found.phase = phase ∧ after = store ∨ found.phase = .running ∧
      after = store.update receiptId .running fun row => { row with phase, commitOid, resultRevision, errorCode }) := by
  unfold finishRunning at accepted
  obtain ⟨-, accepted⟩ := raiseIf_bind_ok.mp accepted
  obtain ⟨found, located, accepted⟩ := orRaise_bind_ok.mp accepted
  obtain ⟨finished, closing, accepted⟩ := bind_eq_ok.mp accepted
  obtain ⟨_, -, accepted⟩ := orRaise_bind_ok.mp accepted
  obtain ⟨-, accepted⟩ := raiseIf_bind_ok.mp accepted
  cases accepted
  have named := (Table.select_eq_some located).2
  refine ⟨found, located, ?_⟩
  unfold finish at closing
  split at closing
  · next closed =>
    obtain ⟨-, closing⟩ := raiseIf_bind_ok.mp closing
    cases closing
    exact Or.inl ⟨closed, rfl⟩
  · obtain ⟨active, closing⟩ := raiseIf_bind_ok.mp closing
    obtain ⟨-, closing⟩ := raiseIf_bind_ok.mp closing
    cases closing
    rw [named]
    exact Or.inr ⟨by simpa using active, rfl⟩

theorem finishRunning_accepted {receiptId : String} {phase : Phase} {commitOid : Option String}
    {resultRevision : Option Int} {errorCode : Option String} (next : Phase.Next .running phase)
    (fenced : ∀ row ∈ store.intents, row.receiptId = receiptId → ∀ n ∈ resultRevision, n = row.expectedRevision + 1)
    (accepted : finishRunning store receiptId phase commitOid resultRevision errorCode = .ok (after, row)) :
    Accepted store after := by
  obtain ⟨found, -, ⟨-, rfl⟩ | ⟨-, rfl⟩⟩ := finishRunning_eq_ok accepted
  · exact .same
  · exact .moved (fun _ => rfl) fun row member same active => .finished active next (fenced row member same)

theorem recordLocalCommit_accepted {receiptId commitOid : String} {resultRevision : Int}
    (distinct : (store.intents.map Intent.receiptId).Nodup)
    (accepted : recordLocalCommit store receiptId commitOid resultRevision = .ok (after, row)) : Accepted store after := by
  unfold recordLocalCommit at accepted
  obtain ⟨-, accepted⟩ := raiseIf_bind_ok.mp accepted
  obtain ⟨receipt, reading, accepted⟩ := bind_eq_ok.mp accepted
  obtain ⟨fence, finished⟩ := raiseIf_bind_ok.mp accepted
  obtain ⟨-, reading⟩ := raiseIf_bind_ok.mp reading
  rw [pure_eq_ok] at reading
  subst reading
  refine finishRunning_accepted .completed (fun row member named n revision => ?_) finished
  subst named
  cases revision
  have found : store.select row.receiptId = some row := Table.select_of_mem distinct member
  rw [found] at fence
  simpa using fence

theorem recordRemoteObservation_eq_ok {receiptId remoteOid : String} {now : Nat}
    (accepted : recordRemoteObservation store receiptId remoteOid now = .ok (after, row)) :
    after = store.update receiptId .completedLocal fun row => { row with
      phase := .publishedRemote, remoteOid := some remoteOid, remoteObservedAt := some now, publicationError := none } := by
  unfold recordRemoteObservation at accepted
  obtain ⟨-, accepted⟩ := raiseIf_bind_ok.mp accepted
  obtain ⟨_, -, accepted⟩ := orRaise_bind_ok.mp accepted
  obtain ⟨-, accepted⟩ := raiseIf_bind_ok.mp accepted
  obtain ⟨-, accepted⟩ := raiseIf_bind_ok.mp accepted
  obtain ⟨_, -, accepted⟩ := orRaise_bind_ok.mp accepted
  cases accepted
  rfl

theorem recordRemoteObservation_accepted {receiptId remoteOid : String} {now : Nat}
    (accepted : recordRemoteObservation store receiptId remoteOid now = .ok (after, row)) : Accepted store after := by
  rw [recordRemoteObservation_eq_ok accepted]
  exact .moved (fun _ => rfl) fun row _ _ completed => .observed remoteOid now completed

theorem recordPublicationFailure_eq_ok {receiptId code : String}
    (accepted : recordPublicationFailure store receiptId code = .ok (after, row)) :
    after = store.update receiptId .completedLocal fun row => { row with publicationError := some code } := by
  unfold recordPublicationFailure at accepted
  obtain ⟨-, accepted⟩ := raiseIf_bind_ok.mp accepted
  obtain ⟨_, -, accepted⟩ := orRaise_bind_ok.mp accepted
  obtain ⟨-, accepted⟩ := raiseIf_bind_ok.mp accepted
  cases accepted
  rfl

theorem recordPublicationFailure_accepted {receiptId code : String}
    (accepted : recordPublicationFailure store receiptId code = .ok (after, row)) : Accepted store after := by
  rw [recordPublicationFailure_eq_ok accepted]
  exact .moved (fun _ => rfl) fun row _ _ completed => .noted code completed

end calls

/-- Every accepted call does one of the few things that the store allows. -/
theorem Call.accepted {store after : Store} {answer : Option Intent} (distinct : (store.intents.map Intent.receiptId).Nodup)
    {call : Call} (accepted : call.effect store = .ok (after, answer)) : Accepted store after := by
  cases call with
  | enqueue key task expectedRevision request receiptId now =>
    obtain ⟨row, stored, -⟩ := map_some_eq_ok accepted
    exact (request_inserts stored).accepted
  | claimNext now => exact claimNext_accepted accepted
  | recordLocalCommit receiptId commitOid resultRevision =>
    obtain ⟨row, recorded, -⟩ := map_some_eq_ok accepted
    exact recordLocalCommit_accepted distinct recorded
  | recordRejection receiptId errorCode =>
    obtain ⟨row, recorded, -⟩ := map_some_eq_ok accepted
    obtain ⟨-, finished⟩ := raiseIf_bind_ok.mp recorded
    exact finishRunning_accepted .rejected (by simp) finished
  | recordAmbiguity receiptId errorCode =>
    obtain ⟨row, recorded, -⟩ := map_some_eq_ok accepted
    obtain ⟨-, finished⟩ := raiseIf_bind_ok.mp recorded
    exact finishRunning_accepted .ambiguous (by simp) finished
  | recordRemoteObservation receiptId remoteOid now =>
    obtain ⟨row, recorded, -⟩ := map_some_eq_ok accepted
    exact recordRemoteObservation_accepted recorded
  | recordPublicationFailure receiptId code =>
    obtain ⟨row, recorded, -⟩ := map_some_eq_ok accepted
    exact recordPublicationFailure_accepted recorded

/-- What holds of every row at any time. -/
structure Sound (row : Intent) : Prop where
  outcome : row.phase.recorded = false → row.outcome = (none, none, none)
  remote : row.phase ≠ .publishedRemote → row.remote = (none, none)
  fence : ∀ n ∈ row.resultRevision, n = row.expectedRevision + 1

/-- How an intent goes on over any number of calls. -/
structure Forward (row next : Intent) : Prop where
  request : next.request = row.request
  phase : Relation.ReflTransGen Phase.Next row.phase next.phase
  outcome : row.phase.recorded = true → next.outcome = row.outcome
  remote : row.phase = .publishedRemote → next.remote = row.remote

section rows

variable {row next last : Intent}

theorem Born.sound (born : Born row) : Sound row where
  outcome _ := born.outcome
  remote _ := born.remote
  fence n revision := by
    have blank := born.outcome
    simp only [Intent.outcome, Prod.mk.injEq] at blank
    rw [blank.2.1] at revision
    cases revision

theorem Phase.Next.recorded {phase other : Phase} (next : Phase.Next phase other) (known : phase.recorded = true) :
    other.recorded = true := by
  cases next <;> first | rfl | cases known

theorem Phase.recorded_of_chain {phase other : Phase} (chain : Relation.ReflTransGen Phase.Next phase other)
    (known : phase.recorded = true) : other.recorded = true := by
  induction chain with
  | refl => exact known
  | tail _ next ih => exact next.recorded ih

theorem Phase.published_of_chain {phase other : Phase} (chain : Relation.ReflTransGen Phase.Next phase other)
    (known : phase = .publishedRemote) : other = .publishedRemote := by
  induction chain with
  | refl => exact known
  | tail _ next ih =>
    subst ih
    cases next

/-- Nothing leads back to the queue. -/
theorem Phase.queued_of_chain {phase : Phase} (chain : Relation.ReflTransGen Phase.Next phase .queuedLocal) :
    phase = .queuedLocal := by
  rcases Relation.ReflTransGen.cases_tail chain with same | ⟨_, -, next⟩
  · exact same.symm
  · cases next

theorem Move.forward (move : Move row next) : Forward row next := by
  cases move with
  | stays => exact ⟨rfl, .refl, fun _ => rfl, fun _ => rfl⟩
  | claimed now queued =>
    refine ⟨rfl, .single ?_, fun recorded => ?_, fun published => ?_⟩
    · rw [queued]
      exact .claimed
    · rw [queued] at recorded
      cases recorded
    · rw [queued] at published
      cases published
  | finished active ends fence =>
    refine ⟨rfl, .single ?_, fun recorded => ?_, fun published => ?_⟩
    · rw [active]
      exact ends
    · rw [active] at recorded
      cases recorded
    · rw [active] at published
      cases published
  | observed oid now completed =>
    refine ⟨rfl, .single ?_, fun _ => rfl, fun published => ?_⟩
    · rw [completed]
      exact .published
    · rw [completed] at published
      cases published
  | noted code completed => exact ⟨rfl, .refl, fun _ => rfl, fun _ => rfl⟩

theorem Move.sound (move : Move row next) (sound : Sound row) : Sound next := by
  cases move with
  | stays => exact sound
  | claimed now queued =>
    refine ⟨fun _ => sound.outcome ?_, fun _ => sound.remote ?_, sound.fence⟩
    · rw [queued]
      rfl
    · rw [queued]
      decide
  | finished active ends fence =>
    refine ⟨fun open_ => ?_, fun _ => sound.remote ?_, fence⟩
    · cases ends <;> cases open_
    · rw [active]
      decide
  | observed oid now completed =>
    refine ⟨fun open_ => ?_, fun unpublished => absurd rfl unpublished, sound.fence⟩
    cases open_
  | noted code completed => exact ⟨sound.outcome, sound.remote, sound.fence⟩

theorem Forward.refl (row : Intent) : Forward row row := ⟨rfl, .refl, fun _ => rfl, fun _ => rfl⟩

theorem Forward.trans (first : Forward row next) (second : Forward next last) : Forward row last where
  request := second.request.trans first.request
  phase := first.phase.trans second.phase
  outcome recorded := (second.outcome (Phase.recorded_of_chain first.phase recorded)).trans (first.outcome recorded)
  remote published := (second.remote (Phase.published_of_chain first.phase published)).trans (first.remote published)

end rows

/-- What holds of the store at any time. -/
structure Kept (store : Store) : Prop where
  distinct : (store.intents.map Intent.receiptId).Nodup
  keys : (store.intents.map Intent.idempotencyKey).Nodup
  sound : ∀ row ∈ store.intents, Sound row

section runs

variable {store after : Store}

theorem request_column {column : Intent → String} {change : Intent → Intent} (fixed : ∀ row, (change row).request = row.request)
    (reads : ∃ f, column = f ∘ Intent.request) (row : Intent) : column (change row) = column row := by
  obtain ⟨f, rfl⟩ := reads
  exact congrArg f (fixed row)

theorem receiptId_of_request : ∃ f, Intent.receiptId = f ∘ Intent.request := ⟨Prod.fst, rfl⟩

theorem idempotencyKey_of_request : ∃ f, Intent.idempotencyKey = f ∘ Intent.request := ⟨fun r => r.2.1, rfl⟩

theorem Accepted.develops (accepted : Accepted store after) :
    Table.Develops Intent.receiptId Born Move store.intents after.intents := by
  cases accepted with
  | same => exact .refl .stays _
  | added born freshId freshKey => exact .insert .stays freshId born
  | moved fixed moves =>
    refine .update .stays (request_column fixed receiptId_of_request) fun row member named guarded => ?_
    exact moves row member named (of_decide_eq_true guarded)

theorem Accepted.kept (kept : Kept store) (accepted : Accepted store after) : Kept after := by
  have develops := accepted.develops
  have sound : ∀ row ∈ after.intents, Sound row := by
    intro row member
    rcases develops.comes row member with ⟨before, there, -, move⟩ | ⟨-, born⟩
    · exact move.sound (kept.sound before there)
    · exact born.sound
  cases accepted with
  | same => exact kept
  | added born freshId freshKey => exact ⟨Table.nodup_snoc kept.distinct freshId, Table.nodup_snoc kept.keys freshKey, sound⟩
  | moved fixed moves =>
    refine ⟨?_, ?_, sound⟩
    · rw [Store.update, Table.map_update _ (request_column fixed receiptId_of_request)]
      exact kept.distinct
    · rw [Store.update, Table.map_update _ (request_column fixed idempotencyKey_of_request)]
      exact kept.keys

theorem step_accepted (kept : Kept store) (call : Call) : Accepted store (step store call) := by
  rw [step]
  split
  · next accepted => exact Call.accepted kept.distinct accepted
  · exact .same

theorem kept_empty (projectId : String) : Kept ⟨projectId, []⟩ := ⟨List.nodup_nil, List.nodup_nil, by simp⟩

theorem run_kept (kept : Kept store) (calls : List Call) : Kept (Run.final step store calls) := by
  have keeps (store : Store) (call : Call) (kept : Kept store) : Kept (step store call) :=
    (step_accepted kept call).kept kept
  exact Run.invariant_always step keeps calls kept

/-- Over a run, every intent goes on from where it stands. -/
theorem run_develops (kept : Kept store) (calls : List Call) :
    Table.Develops Intent.receiptId (fun _ => True) Forward store.intents (Run.final step store calls).intents := by
  induction calls generalizing store with
  | nil => exact .refl .refl _
  | cons call rest ih =>
    have accepted := step_accepted kept call
    have first : Table.Develops Intent.receiptId (fun _ => True) Forward store.intents (step store call).intents :=
      { stays := accepted.develops.stays
        comes := fun next member => (accepted.develops.comes next member).imp
          (fun ⟨row, there, same, move⟩ => ⟨row, there, same, move.forward⟩) (fun ⟨fresh, _⟩ => ⟨fresh, trivial⟩) }
    exact first.trans (ih (accepted.kept kept)) Forward.trans fun _ _ => trivial

/-- What is handed out was queued, and is running from then on. -/
theorem handed_eq_some {call : Call} {receiptId : String} (out : handed store call = some receiptId) :
    ∃ row ∈ store.intents, row.receiptId = receiptId ∧ row.phase = .queuedLocal ∧
      ∃ next ∈ (step store call).intents, next.receiptId = receiptId ∧ next.phase = .running := by
  cases call with
  | claimNext now =>
    simp only [handed] at out
    split at out
    · next after answer claimed =>
      obtain ⟨row, rfl, rfl⟩ := Option.map_eq_some_iff.mp out
      rcases claimNext_eq_ok claimed with ⟨none, -⟩ | ⟨selected, next, same, member, queued, there, named, active, -⟩
      · cases none
      · cases same
        have stepped : step store (.claimNext now) = after := by rw [step, Call.effect, claimed]
        rw [stepped]
        exact ⟨selected, member, named.symm, queued, row, there, rfl, active⟩
    · cases out
  | _ => cases out

/-- A run hands out no intent that has left the queue. -/
theorem queued_of_handedOut (kept : Kept store) (calls : List Call) {receiptId : String}
    (out : receiptId ∈ handedOut store calls) {row : Intent} (member : row ∈ store.intents) (named : row.receiptId = receiptId) :
    row.phase = .queuedLocal := by
  induction calls generalizing store row with
  | nil => cases out
  | cons call rest ih =>
    rcases List.mem_append.mp out with now | later
    · obtain ⟨other, there, same, queued, -⟩ := handed_eq_some (Option.mem_toList.mp now)
      rw [List.inj_on_of_nodup_map kept.distinct member there (named.trans same.symm)]
      exact queued
    · have accepted := step_accepted kept call
      obtain ⟨next, there, same⟩ := accepted.develops.stays row member
      have still := ih (accepted.kept kept) later there (same.trans named)
      have chain := (accepted.develops.move kept.distinct member there same).forward.phase
      rw [still] at chain
      exact Phase.queued_of_chain chain

theorem handedOut_nodup (kept : Kept store) (calls : List Call) : (handedOut store calls).Nodup := by
  induction calls generalizing store with
  | nil => exact List.nodup_nil
  | cons call rest ih =>
    have next := (step_accepted kept call).kept kept
    refine List.nodup_append.mpr ⟨?_, ih next, fun receiptId now other later => ?_⟩
    · cases handed store call <;> simp
    · rintro rfl
      obtain ⟨-, -, -, -, row, there, named, active⟩ := handed_eq_some (Option.mem_toList.mp now)
      have queued := queued_of_handedOut next rest later there named
      rw [active] at queued
      cases queued

end runs

/-- The column keeps a value that it has once been given. -/
def Once {α : Type} (column next : Option α) : Prop := ∀ value ∈ column, next = some value

/-- What becomes of one intent between two times of a run. -/
structure Intent.Settles (row next : Intent) : Prop where
  forward : Relation.ReflTransGen Phase.Next row.phase next.phase
  recorded : row.phase.recorded = true → next.outcome = row.outcome
  commit : Once row.commitOid next.commitOid
  revision : Once row.resultRevision next.resultRevision
  error : Once row.errorCode next.errorCode
  remote : Once row.remoteOid next.remoteOid
  observed : Once row.remoteObservedAt next.remoteObservedAt

theorem Forward.settles {row next : Intent} (sound : Sound row) (forward : Forward row next) : row.Settles next := by
  have outcome : next.outcome = row.outcome ∨ row.outcome = (none, none, none) := by
    cases known : row.phase.recorded with
    | true => exact Or.inl (forward.outcome known)
    | false => exact Or.inr (sound.outcome known)
  have remote : next.remote = row.remote ∨ row.remote = (none, none) := by
    by_cases known : row.phase = .publishedRemote
    · exact Or.inl (forward.remote known)
    · exact Or.inr (sound.remote known)
  simp only [Intent.outcome, Prod.mk.injEq] at outcome
  simp only [Intent.remote, Prod.mk.injEq] at remote
  have once {α : Type} {column later : Option α} (kept : later = column ∨ column = none) : Once column later := by
    rintro value ⟨⟩
    rcases kept with same | blank
    · exact same
    · cases blank
  exact ⟨forward.phase, forward.outcome, once (outcome.imp And.left And.left),
    once (outcome.imp (fun h => h.2.1) fun h => h.2.1), once (outcome.imp (fun h => h.2.2) fun h => h.2.2),
    once (remote.imp And.left And.left), once (remote.imp And.right And.right)⟩

/-- What holds between two times of a run: a key stands for one intent with one payload, and every
intent goes forward. -/
structure Lifecycle (before after : Store) : Prop where
  keys : (before.intents.map Intent.idempotencyKey).Nodup
  bound : ∀ row ∈ before.intents, ∃ next ∈ after.intents, next.idempotencyKey = row.idempotencyKey
  payload : ∀ row ∈ before.intents, ∀ next ∈ after.intents, next.idempotencyKey = row.idempotencyKey →
    next.payloadJson = row.payloadJson ∧ next.receiptId = row.receiptId
  settles : ∀ row ∈ before.intents, ∀ next ∈ after.intents, next.receiptId = row.receiptId → row.Settles next
  fence : ∀ row ∈ before.intents, ∀ revision ∈ row.resultRevision, revision = row.expectedRevision + 1

/-- The life of every intent, between any two times of any run from an empty store. -/
theorem intents_run (projectId : String) (first second : List Call) :
    Lifecycle (Run.final step ⟨projectId, []⟩ first) (Run.final step ⟨projectId, []⟩ (first ++ second)) ∧
      (handedOut ⟨projectId, []⟩ (first ++ second)).Nodup := by
  have kept := run_kept (kept_empty projectId) first
  refine ⟨?_, handedOut_nodup (kept_empty projectId) (first ++ second)⟩
  rw [Run.final_append]
  generalize Run.final step ⟨projectId, []⟩ first = before at kept
  have develops := run_develops kept second
  have later := run_kept kept second
  refine ⟨kept.keys, fun row member => ?_, fun row member next there same => ?_, fun row member next there same => ?_,
    fun row member => (kept.sound row member).fence⟩
  · obtain ⟨next, there, same⟩ := develops.stays row member
    have request := (develops.move kept.distinct member there same).request
    exact ⟨next, there, congrArg (fun r => r.2.1) request⟩
  · obtain ⟨other, known, named⟩ := develops.stays row member
    have request := (develops.move kept.distinct member known named).request
    have key : next.idempotencyKey = other.idempotencyKey := same.trans (congrArg (fun r => r.2.1) request).symm
    rw [List.inj_on_of_nodup_map later.keys there known key]
    exact ⟨congrArg (fun r => r.2.2.2.2.2.1) request, named⟩
  · exact (develops.move kept.distinct member there same).settles (kept.sound row member)

end Coordinator.Receipts
