import Coordinator.Kit.Attempt
import Coordinator.Kit.Run
import Coordinator.OracleLifecycle

/-! The journal of a safe exit: a checkpoint of what a discussion leaves open, the mapping of its future requests to
ARs, and the exit that is committed once all of them are mapped. -/

namespace Coordinator.SafeExit
open Kit

/-- The message of an exit error, unless there is none. -/
abbrev Checked (α : Type) := Except String α

def checkRef (value label : String) : Checked Unit := raiseIf (!OracleLifecycle.publicRef value) (label ++ " must be public-safe")

def checkDigest (value label : String) : Checked Unit := raiseIf (!Text.isDigest value) (label ++ " must be a sha256 digest")

def checkArRef (value : String) : Checked Unit := raiseIf (!isTaskId value) "future AR mapping is invalid"

def checkFuture (requestRef requestDigest : String) (arRef : Option String) : Checked Unit := do
  checkRef requestRef "future request ref"
  checkDigest requestDigest "future request digest"
  match arRef with
  | none => pure ()
  | some value => checkArRef value

/-- A future request. One that fails its checks cannot be made. -/
structure FutureDiscussion where
  requestRef : String
  requestDigest : String
  arRef : Option String
  checked : checkFuture requestRef requestDigest arRef = .ok ()
  deriving DecidableEq

def checkSnapshot (snapshotRef snapshotDigest : String)
    (proposalRefs selectionRefs customSolutionRefs unresolvedRefs : List String) : Checked Unit := do
  checkRef snapshotRef "snapshot ref"
  checkDigest snapshotDigest "snapshot digest"
  [(proposalRefs, "proposal"), (selectionRefs, "selection"), (customSolutionRefs, "custom solution"),
    (unresolvedRefs, "unresolved")].forM fun (refs, label) => refs.forM fun value => checkRef value (label ++ " ref")

/-- All that an exit keeps of a discussion, as public references and digests. -/
structure ExitSnapshot where
  snapshotRef : String
  snapshotDigest : String
  proposalRefs : List String
  selectionRefs : List String
  customSolutionRefs : List String
  unresolvedRefs : List String
  futureRequests : List FutureDiscussion
  checked : checkSnapshot snapshotRef snapshotDigest proposalRefs selectionRefs customSolutionRefs unresolvedRefs = .ok ()
  deriving DecidableEq

inductive Action where
  | checkpoint
  | mapFuture
  | commitExit
  | resume
  deriving DecidableEq

def checkEvent (eventId taskId : String) (taskRevision : Int) (checkpointDigest : Option String) : Checked Unit := do
  checkRef eventId "event id"
  raiseIf (!isTaskId taskId) "task_id is invalid"
  raiseIf (taskRevision < 1) "task_revision must be positive"
  match checkpointDigest with
  | none => pure ()
  | some digest => checkDigest digest "checkpoint digest"

structure ExitEvent where
  eventId : String
  taskId : String
  taskRevision : Int
  action : Action
  snapshot : Option ExitSnapshot := none
  checkpointDigest : Option String := none
  checked : checkEvent eventId taskId taskRevision checkpointDigest = .ok ()

structure Journal where
  taskId : String
  taskRevision : Int
  snapshot : Option ExitSnapshot := none
  pending : Bool := false
  committed : Bool := false
  eventIds : List String := []
  deriving DecidableEq

def Journal.start (taskId : String) (taskRevision : Int) : Checked Journal := do
  raiseIf (!isTaskId taskId || taskRevision < 1) "journal identity is invalid"
  pure { taskId := taskId, taskRevision := taskRevision }

/-- The snapshot with a request in place of those of its reference. What the checks of a snapshot read is as it was. -/
def replaceFuture (snapshot : ExitSnapshot) (replacement : FutureDiscussion) : Checked ExitSnapshot := do
  let requests := snapshot.futureRequests.map fun item => if item.requestRef = replacement.requestRef then replacement else item
  raiseIf (requests = snapshot.futureRequests) "future request is not in checkpoint"
  pure { snapshot with futureRequests := requests }

abbrev Journaling := Attempt Journal String Unit

def refuse (bad : Bool) (message : String) : Journaling := .lift (raiseIf bad message)

def checkpoint (event : ExitEvent) : Journaling := do
  let pending ← .look Journal.pending
  refuse (event.snapshot.isNone || pending) "checkpoint is missing or already pending"
  .act none fun journal => { journal with snapshot := event.snapshot }
  .act none fun journal => { journal with pending := true }

/-- The snapshot of a pending exit. -/
def interrupted (message : String) : Attempt Journal String ExitSnapshot := do
  let journal ← .look id
  refuse (!journal.pending) message
  .lift (orRaise journal.snapshot message)

def resume (event : ExitEvent) : Journaling := do
  let snapshot ← interrupted "resume requires an interrupted checkpoint"
  refuse (event.checkpointDigest ≠ some snapshot.snapshotDigest) "resume checkpoint does not match"

def mapFuture (event : ExitEvent) : Journaling := do
  let snapshot ← interrupted "future mapping requires a checkpoint"
  let given ← .lift (orRaise event.snapshot "future mapping is missing request")
  let request ← .lift (match given.futureRequests with
    | [request] => .ok request
    | _ => .error "future mapping requires one request")
  refuse request.arRef.isNone "future request has no AR mapping"
  let replaced ← .lift (replaceFuture snapshot request)
  .act none fun journal => { journal with snapshot := some replaced }

def commitExit : Journaling := do
  let snapshot ← interrupted "exit requires a checkpoint"
  refuse (snapshot.futureRequests.any fun request => request.arRef.isNone) "future discussion request is unmapped"
  .act none fun journal => { journal with pending := false }
  .act none fun journal => { journal with committed := true }

/-- What is particular to the action of an event. -/
def perform (event : ExitEvent) : Journaling :=
  match event.action with
  | .checkpoint => checkpoint event
  | .resume => resume event
  | .mapFuture => mapFuture event
  | .commitExit => commitExit

def apply (event : ExitEvent) : Journaling := do
  let journal ← .look id
  refuse (journal.eventIds.contains event.eventId) "duplicate exit event"
  refuse (event.taskId ≠ journal.taskId || event.taskRevision ≠ journal.taskRevision) "stale exit revision"
  refuse journal.committed "exit is already committed"
  perform event
  .act none fun journal => { journal with eventIds := event.eventId :: journal.eventIds }
  .act none fun journal => { journal with taskRevision := journal.taskRevision + 1 }

/-- The journal after an event, whether it was accepted or not. -/
def step (journal : Journal) (event : ExitEvent) : Journal := (apply event journal).2

/-! What an event does. -/

variable {journal after : Journal} {event : ExitEvent}

/-- An event comes with the identity, the task and the revision that the journal expects, before the exit. -/
structure Timely (journal : Journal) (event : ExitEvent) : Prop where
  fresh : event.eventId ∉ journal.eventIds
  task : event.taskId = journal.taskId
  revision : event.taskRevision = journal.taskRevision
  open_ : journal.committed = false

/-- What an accepted event changes besides the identities and the revision. -/
inductive Moves (journal : Journal) (event : ExitEvent) : Journal → Prop where
  | checkpoint (snapshot : ExitSnapshot) (action : event.action = .checkpoint) (given : event.snapshot = some snapshot)
      (idle : journal.pending = false) : Moves journal event { journal with snapshot := some snapshot, pending := true }
  | resume (snapshot : ExitSnapshot) (action : event.action = .resume) (pending : journal.pending = true)
      (held : journal.snapshot = some snapshot) (same : event.checkpointDigest = some snapshot.snapshotDigest) :
      Moves journal event journal
  | mapFuture (snapshot given replaced : ExitSnapshot) (request : FutureDiscussion) (action : event.action = .mapFuture)
      (pending : journal.pending = true) (held : journal.snapshot = some snapshot) (carried : event.snapshot = some given)
      (single : given.futureRequests = [request]) (mapped : request.arRef.isSome = true)
      (replaces : replaceFuture snapshot request = .ok replaced) :
      Moves journal event { journal with snapshot := some replaced }
  | commitExit (snapshot : ExitSnapshot) (action : event.action = .commitExit) (pending : journal.pending = true)
      (held : journal.snapshot = some snapshot) (mapped : ∀ request ∈ snapshot.futureRequests, request.arRef.isSome = true) :
      Moves journal event { journal with pending := false, committed := true }

/-- The journal with an event noted. -/
def noted (event : ExitEvent) (journal : Journal) : Journal :=
  { journal with eventIds := event.eventId :: journal.eventIds, taskRevision := journal.taskRevision + 1 }

@[simp] theorem returns_refuse {bad : Bool} {message : String} {u : Unit} :
    Attempt.Returns journal (refuse bad message) u after ↔ bad = false ∧ journal = after := by
  simp [refuse]

@[simp] theorem returns_refuse_bind {α : Type} {bad : Bool} {message : String} {rest : Unit → Attempt Journal String α} {value : α} :
    Attempt.Returns journal (refuse bad message >>= rest) value after ↔ bad = false ∧ Attempt.Returns journal (rest ()) value after := by
  simp [refuse, exists_unit]

theorem returns_interrupted_bind {α : Type} {message : String} {rest : ExitSnapshot → Attempt Journal String α} {value : α} :
    Attempt.Returns journal (interrupted message >>= rest) value after ↔
      journal.pending = true ∧ ∃ snapshot, journal.snapshot = some snapshot ∧ Attempt.Returns journal (rest snapshot) value after := by
  simp only [interrupted, Attempt.returns_bind, Attempt.returns_look, returns_refuse, Attempt.returns_lift, orRaise_eq_ok]
  constructor
  · rintro ⟨snapshot, mid, ⟨read, start, ⟨rfl, rfl⟩, u, same, ⟨pending, rfl⟩, held, rfl⟩, continued⟩
    exact ⟨by simpa using pending, snapshot, held, continued⟩
  · rintro ⟨pending, snapshot, held, continued⟩
    exact ⟨snapshot, journal, ⟨journal, journal, ⟨rfl, rfl⟩, (), journal, ⟨by simp [pending], rfl⟩, held, rfl⟩, continued⟩

theorem single_eq_ok {requests : List FutureDiscussion} {request : FutureDiscussion} {message : String} :
    ((match requests with
      | [request] => .ok request
      | _ => .error message) : Checked FutureDiscussion) = .ok request ↔ requests = [request] := by
  split
  · simp
  next other =>
    refine iff_of_false (fun never => by cases never) fun single => other request single

theorem returns_perform {u : Unit} : Attempt.Returns journal (perform event) u after ↔ Moves journal event after := by
  constructor
  · intro acted
    unfold perform at acted
    cases kind : event.action with
    | checkpoint =>
      rw [kind] at acted
      simp only [checkpoint, Attempt.returns_look_bind, returns_refuse_bind, Attempt.returns_act_bind, Attempt.returns_act,
        true_and, Bool.or_eq_false_iff, Option.isNone_eq_false_iff, Option.isSome_iff_exists] at acted
      obtain ⟨⟨⟨snapshot, given⟩, idle⟩, rfl⟩ := acted
      rw [given]
      exact .checkpoint snapshot kind given idle
    | resume =>
      rw [kind] at acted
      simp only [resume, returns_interrupted_bind, returns_refuse, decide_eq_false_iff_not, ne_eq, not_not] at acted
      obtain ⟨pending, snapshot, held, same, rfl⟩ := acted
      exact .resume snapshot kind pending held same
    | mapFuture =>
      rw [kind] at acted
      simp only [mapFuture, returns_interrupted_bind, Attempt.returns_lift_bind, orRaise_eq_ok, single_eq_ok, returns_refuse_bind,
        Attempt.returns_act, true_and, Option.isNone_eq_false_iff] at acted
      obtain ⟨pending, snapshot, held, given, carried, request, single, mapped, replaced, replaces, rfl⟩ := acted
      exact .mapFuture snapshot given replaced request kind pending held carried single mapped replaces
    | commitExit =>
      rw [kind] at acted
      simp only [commitExit, returns_interrupted_bind, returns_refuse_bind, Attempt.returns_act_bind, Attempt.returns_act,
        true_and, List.any_eq_false, Bool.not_eq_true, Option.isNone_eq_false_iff] at acted
      obtain ⟨pending, snapshot, held, mapped, rfl⟩ := acted
      exact .commitExit snapshot kind pending held mapped
  · intro moves
    unfold perform
    cases moves with
    | checkpoint snapshot kind given idle => simp [kind, checkpoint, given, idle]
    | resume snapshot kind pending held same => simp [kind, resume, returns_interrupted_bind, pending, held, same]
    | mapFuture snapshot given replaced request kind pending held carried single mapped replaces =>
      simp [kind, mapFuture, returns_interrupted_bind, pending, held, carried, single_eq_ok, single, mapped, replaces]
    | commitExit snapshot kind pending held mapped =>
      have all : (snapshot.futureRequests.any fun request => request.arRef.isNone) = false := by
        refine List.any_eq_false.mpr fun request member open_ => ?_
        rw [Option.isNone_iff_eq_none] at open_
        simpa [open_] using mapped request member
      simp only [kind, commitExit, returns_interrupted_bind, returns_refuse_bind, Attempt.returns_act_bind, Attempt.returns_act,
        and_true]
      exact ⟨pending, snapshot, held, all⟩

/-- Which event is accepted, and what it does. -/
theorem returns_apply {u : Unit} : Attempt.Returns journal (apply event) u after ↔
    Timely journal event ∧ ∃ moved, Moves journal event moved ∧ noted event moved = after := by
  have timely : Timely journal event ↔ journal.eventIds.contains event.eventId = false ∧
      (decide (event.taskId ≠ journal.taskId) || decide (event.taskRevision ≠ journal.taskRevision)) = false ∧
      journal.committed = false := by
    simp only [List.contains_eq_mem, decide_eq_false_iff_not, Bool.or_eq_false_iff, ne_eq, not_not]
    exact ⟨fun h => ⟨h.fresh, ⟨h.task, h.revision⟩, h.open_⟩, fun h => ⟨h.1, h.2.1.1, h.2.1.2, h.2.2⟩⟩
  rw [apply]
  simp only [Attempt.returns_look_bind, returns_refuse_bind, id_eq, timely, and_assoc]
  refine and_congr_right fun _ => and_congr_right fun _ => and_congr_right fun _ => ?_
  simp only [Attempt.returns_bind, returns_perform, Attempt.returns_act, true_and, exists_unit, exists_eq_left']
  rfl

theorem clean_checkpoint (event : ExitEvent) : Attempt.Clean (checkpoint event) :=
  .after_reads (.look _) fun _ => .after_reads (.lift _) fun _ => (Attempt.Succeeds.bind (.act _) fun _ => .act _).clean

theorem reads_interrupted (message : String) : Attempt.Reads (interrupted message) :=
  .bind (.look _) fun _ => .bind (.lift _) fun _ => .lift _

theorem clean_perform (event : ExitEvent) : Attempt.Clean (perform event) := by
  unfold perform
  cases event.action with
  | checkpoint => exact clean_checkpoint event
  | resume => exact .after_reads (reads_interrupted _) fun _ => (Attempt.Reads.lift _).clean
  | mapFuture =>
    exact .after_reads (reads_interrupted _) fun _ => .after_reads (.lift _) fun _ => .after_reads (.lift _) fun _ =>
      .after_reads (.lift _) fun _ => .after_reads (.lift _) fun _ => (Attempt.Succeeds.act _).clean
  | commitExit =>
    exact .after_reads (reads_interrupted _) fun _ => .after_reads (.lift _) fun _ =>
      (Attempt.Succeeds.bind (.act _) fun _ => .act _).clean

/-- A rejected event leaves the journal as it was. -/
theorem clean_apply (event : ExitEvent) : Attempt.Clean (apply event) :=
  .after_reads (.look _) fun _ => .after_reads (.lift _) fun _ => .after_reads (.lift _) fun _ => .after_reads (.lift _) fun _ =>
    .before_success (clean_perform event) fun _ => .bind (.act _) fun _ => .act _

/-- An event is rejected, or the journal is open for it and moves. -/
theorem step_cases (journal : Journal) (event : ExitEvent) :
    ((∃ message, (apply event journal).1 = .error message) ∧ step journal event = journal) ∨
      ((apply event journal).1 = .ok () ∧ Timely journal event ∧ ∃ moved, Moves journal event moved ∧
        step journal event = noted event moved) := by
  cases outcome : (apply event journal).1 with
  | error message => exact .inl ⟨⟨message, rfl⟩, clean_apply event journal message outcome⟩
  | ok u =>
    obtain ⟨timely, moved, moves, same⟩ := returns_apply.mp (Prod.ext outcome rfl : Attempt.Returns journal (apply event) u _)
    exact .inr ⟨rfl, timely, moved, moves, same.symm⟩

/-! What a run keeps. -/

/-- A request after another one of its identity was mapped: only its mapped reference can differ. -/
structure Remapped (request item after : FutureDiscussion) : Prop where
  ref : after.requestRef = item.requestRef
  digest : after.requestDigest = item.requestDigest
  arRef : after.arRef = if item.requestRef = request.requestRef then request.arRef else item.arRef

/-- A snapshot after the mapping of a request. -/
structure Framed (request : FutureDiscussion) (before after : ExitSnapshot) : Prop where
  fields : { after with futureRequests := before.futureRequests } = before
  requests : List.Forall₂ (Remapped request) before.futureRequests after.futureRequests

/-- A request is framed by its replacement exactly if the replacement carries the digest that is on record. -/
theorem remapped_iff {request item : FutureDiscussion} :
    Remapped request item (if item.requestRef = request.requestRef then request else item) ↔
      (item.requestRef = request.requestRef → item.requestDigest = request.requestDigest) := by
  by_cases same : item.requestRef = request.requestRef
  · rw [if_pos same]
    exact ⟨fun framed _ => framed.digest.symm, fun digest => ⟨same.symm, (digest same).symm, by rw [if_pos same]⟩⟩
  · rw [if_neg same]
    exact iff_of_true ⟨rfl, rfl, by rw [if_neg same]⟩ fun again => absurd again same

theorem replaceFuture_eq_ok {snapshot replaced : ExitSnapshot} {request : FutureDiscussion}
    (replaces : replaceFuture snapshot request = .ok replaced) : replaced =
      { snapshot with futureRequests :=
          snapshot.futureRequests.map fun item => if item.requestRef = request.requestRef then request else item } := by
  simp only [replaceFuture, raiseIf_bind_ok, pure_eq_ok] at replaces
  exact replaces.2.symm

/-- A mapping changes nothing but the mapped reference exactly if it carries the digest on record for its request. -/
theorem replaced_framed_iff {snapshot replaced : ExitSnapshot} {request : FutureDiscussion}
    (replaces : replaceFuture snapshot request = .ok replaced) : Framed request snapshot replaced ↔
      ∀ item ∈ snapshot.futureRequests, item.requestRef = request.requestRef → item.requestDigest = request.requestDigest := by
  rw [replaceFuture_eq_ok replaces]
  have each : ∀ items : List FutureDiscussion, List.Forall₂ (Remapped request) items
      (items.map fun item => if item.requestRef = request.requestRef then request else item) ↔
        ∀ item ∈ items, item.requestRef = request.requestRef → item.requestDigest = request.requestDigest := by
    intro items
    induction items with
    | nil => simp
    | cons item rest ih => rw [List.map_cons, List.forall₂_cons, remapped_iff, ih, List.forall_mem_cons]
  exact ⟨fun framed => (each _).mp framed.requests, fun digests => ⟨rfl, (each _).mpr digests⟩⟩

/-- What the exit promises of one event. -/
structure Contract (journal : Journal) (event : ExitEvent) (after : Journal) : Prop where
  rejected : ∀ message, (apply event journal).1 = .error message → after = journal
  closed : journal.committed = true → ∃ message, (apply event journal).1 = .error message
  mapped : event.action = .mapFuture → (apply event journal).1 = .ok () → ∃ snapshot given request replaced,
    journal.snapshot = some snapshot ∧ event.snapshot = some given ∧ given.futureRequests = [request] ∧
      Framed request snapshot replaced ∧ after = noted event { journal with snapshot := some replaced }
  recorded : event.action ≠ .mapFuture → ∀ snapshot ∈ journal.snapshot, after.snapshot = some snapshot

/-- Every recorded request is mapped, once the exit is committed. -/
def AllMapped (journal : Journal) : Prop :=
  journal.committed = true → ∃ snapshot, journal.snapshot = some snapshot ∧
    ∀ request ∈ snapshot.futureRequests, request.arRef.isSome = true

/-- A snapshot stands exactly while an exit is pending or once it is committed. -/
structure Coherent (journal : Journal) : Prop where
  mapped : AllMapped journal
  idle : journal.pending = false → journal.committed = false → journal.snapshot = none

/-- A mapping carries the digest that is on record for its request. -/
def CarriesDigest (journal : Journal) (event : ExitEvent) : Prop :=
  event.action = .mapFuture → ∀ snapshot ∈ journal.snapshot, ∀ given ∈ event.snapshot, ∀ request ∈ given.futureRequests,
    ∀ item ∈ snapshot.futureRequests, item.requestRef = request.requestRef → item.requestDigest = request.requestDigest

theorem start_coherent {taskId : String} {revision : Int} {start : Journal}
    (started : Journal.start taskId revision = .ok start) : Coherent start := by
  simp only [Journal.start, raiseIf_bind_ok, pure_eq_ok] at started
  obtain ⟨-, rfl⟩ := started
  exact ⟨fun never => (by cases never), fun _ _ => rfl⟩

theorem step_coherent (journal : Journal) (event : ExitEvent) (coherent : Coherent journal) : Coherent (step journal event) := by
  obtain ⟨-, same⟩ | ⟨-, timely, moved, moves, same⟩ := step_cases journal event
  · rw [same]
    exact coherent
  rw [same]
  cases moves with
  | checkpoint snapshot action given idle =>
    exact ⟨fun committed => absurd (timely.open_.symm.trans committed) Bool.false_ne_true, fun never => by cases never⟩
  | resume snapshot action pending held digest => exact ⟨coherent.mapped, coherent.idle⟩
  | mapFuture snapshot given replaced request action pending held carried single mapped replaces =>
    exact ⟨fun committed => absurd (timely.open_.symm.trans committed) Bool.false_ne_true,
      fun idle => absurd (idle.symm.trans pending) Bool.false_ne_true⟩
  | commitExit snapshot action pending held mapped => exact ⟨fun _ => ⟨snapshot, held, mapped⟩, fun _ never => by cases never⟩

theorem step_contract (journal : Journal) (event : ExitEvent) (coherent : Coherent journal) (carries : CarriesDigest journal event) :
    Contract journal event (step journal event) := by
  obtain ⟨refused, same⟩ | ⟨accepted, timely, moved, moves, same⟩ := step_cases journal event
  · refine ⟨fun _ _ => same, fun _ => refused, fun _ accepted => ?_, fun _ snapshot held => ?_⟩
    · obtain ⟨message, failed⟩ := refused
      rw [failed] at accepted
      cases accepted
    · rw [same]
      exact held
  refine ⟨fun message failed => ?_, fun committed => ?_, fun action _ => ?_, fun other snapshot held => ?_⟩
  · rw [accepted] at failed
    cases failed
  · rw [timely.open_] at committed
    cases committed
  · rw [same]
    cases moves with
    | mapFuture snapshot given replaced request action pending held carried single mapped replaces =>
      refine ⟨snapshot, given, request, replaced, held, carried, single, ?_, rfl⟩
      exact (replaced_framed_iff replaces).mpr (carries action snapshot held given carried request (by simp [single]))
    | checkpoint _ kind => cases kind.symm.trans action
    | resume _ kind => cases kind.symm.trans action
    | commitExit _ kind => cases kind.symm.trans action
  · rw [same]
    cases moves with
    | mapFuture _ _ _ _ action => exact absurd action other
    | checkpoint _ _ _ idle =>
      rw [coherent.idle idle timely.open_] at held
      cases held
    | resume => exact held
    | commitExit => exact held

/-- In every run whose mappings carry the digests on record, the exit keeps its promises at each event, and it is committed
only with every recorded request mapped. -/
theorem safe_exit_run {taskId : String} {revision : Int} {start : Journal} (started : Journal.start taskId revision = .ok start)
    {events : List ExitEvent} (carried : Run.Along step CarriesDigest start events) :
    AllMapped (Run.final step start events) ∧ Run.Steps step Contract start events := by
  have coherent := start_coherent started
  refine ⟨(Run.invariant_always step step_coherent events coherent).mapped, ?_⟩
  exact Run.steps_of_invariant step (fun journal event holds _ => step_coherent journal event holds) step_contract events start
    coherent carried

def sampleDigest (digit : Char) : String := "sha256:" ++ String.ofList (List.replicate 64 digit)

def recordedRequest : FutureDiscussion := ⟨"future/1", sampleDigest 'b', none, rfl⟩

def mappedRequest : FutureDiscussion := ⟨"future/1", sampleDigest 'b', some "AR-0029", rfl⟩

/-- A mapping of the recorded request under a digest of its own. -/
def strayRequest : FutureDiscussion := ⟨"future/1", sampleDigest 'c', some "AR-0029", rfl⟩

def sampleSnapshot (request : FutureDiscussion) : ExitSnapshot :=
  ⟨"exit/snapshot-1", sampleDigest 'a', ["proposal/1"], ["selection/1"], ["solution/1"], ["unresolved/1"], [request], rfl⟩

def sampleCheckpoint : ExitEvent := ⟨"checkpoint-1", "AR-0028", 1, .checkpoint, some (sampleSnapshot recordedRequest), none, rfl⟩

def sampleMapping (request : FutureDiscussion) : ExitEvent :=
  ⟨"map-1", "AR-0028", 2, .mapFuture, some (sampleSnapshot request), none, rfl⟩

def sampleCommit : ExitEvent := ⟨"commit-1", "AR-0028", 3, .commitExit, none, none, rfl⟩

def sampleJournal : Journal := { taskId := "AR-0028", taskRevision := 1 }

theorem safe_exit_sample :
    (Run.final step sampleJournal [sampleCheckpoint, sampleMapping mappedRequest, sampleCommit]).committed = true ∧
      AllMapped (Run.final step sampleJournal [sampleCheckpoint, sampleMapping mappedRequest, sampleCommit]) ∧
      Run.Steps step Contract sampleJournal [sampleCheckpoint, sampleMapping mappedRequest, sampleCommit] := by
  have started : Journal.start "AR-0028" 1 = .ok sampleJournal := rfl
  refine ⟨by decide +kernel, safe_exit_run started ⟨?_, ?_, ?_, trivial⟩⟩
  · intro other
    cases other
  · rintro - snapshot held given carried request member item listed -
    cases held
    cases carried
    rw [List.mem_singleton.mp member, List.mem_singleton.mp listed]
    rfl
  · intro other
    cases other

/-- A mapping that names the recorded request puts its own digest in place of the recorded one. -/
theorem mapping_replaces_digest : Journal.start "AR-0028" 1 = .ok sampleJournal ∧
    (apply (sampleMapping strayRequest) (step sampleJournal sampleCheckpoint)).1 = .ok () ∧
    ¬ Run.Steps step Contract sampleJournal [sampleCheckpoint, sampleMapping strayRequest] := by
  refine ⟨rfl, rfl, fun ⟨_, second, _⟩ => ?_⟩
  obtain ⟨snapshot, given, request, replaced, held, -, -, framed, same⟩ := second.mapped rfl rfl
  have stored : (step (step sampleJournal sampleCheckpoint) (sampleMapping strayRequest)).snapshot =
      some (sampleSnapshot strayRequest) := rfl
  obtain rfl : sampleSnapshot strayRequest = replaced := Option.some.inj (stored.symm.trans (congrArg Journal.snapshot same))
  obtain rfl : sampleSnapshot recordedRequest = snapshot := Option.some.inj held
  obtain ⟨remapped, -⟩ := List.forall₂_cons.mp framed.requests
  exact absurd remapped.digest (by decide)

end Coordinator.SafeExit
