import Coordinator.SessionReplies
import Coordinator.SessionTransitions

/-! Authority effects behind a durable journal. A capability enters an intent, invokes the effect, and publishes what became
of it. The three parts of an execution meet whatever other processes do to the session in between. -/

namespace Coordinator.AuthorityMutation
open Kit Kit.Durable BarrierSession

structure CommitAdmissionBundle where
  backend : String
  target : String
  operationId : String
  fencingToken : String
  stateRevision : Nat
  barrierId : String
  artifactIdentity : String
  manifestIdentity : String
  selectorIdentity : String
  runtimeIdentity : String
  backendKnown : backend = "git" ∨ backend = "sqlite"
  targetKnown : target = "new" ∨ target = "rollback"
  named : [operationId, fencingToken, barrierId, artifactIdentity, manifestIdentity, selectorIdentity, runtimeIdentity].all (· ≠ "")
  positive : 1 ≤ stateRevision

namespace CommitAdmissionBundle

variable (admission : CommitAdmissionBundle)

/-- The identity that the result of an effect has to carry. -/
def expectedIdentity : Dict :=
  [("backend", .str admission.backend), ("target", .str admission.target), ("operation_id", .str admission.operationId),
    ("state_revision", .int admission.stateRevision), ("barrier_id", .str admission.barrierId),
    ("artifact_identity", .str admission.artifactIdentity), ("manifest_identity", .str admission.manifestIdentity),
    ("selector_identity", .str admission.selectorIdentity), ("runtime_identity", .str admission.runtimeIdentity),
    ("fencing_token", .str admission.fencingToken)]

def mutationReceipt : Dict := admission.expectedIdentity ++ [("mutates_authority", .bool true)]

def request : EffectRequest where
  expectedRevision := admission.stateRevision
  operationId := admission.operationId
  backend := admission.backend
  target := admission.target
  fencingToken := some admission.fencingToken
  barrierId := some admission.barrierId
  admission := ⟨some admission.artifactIdentity, some admission.manifestIdentity, some admission.selectorIdentity,
    some admission.runtimeIdentity⟩

end CommitAdmissionBundle

/-- How the callback of an effect ends. Reading a field of its result may raise. -/
inductive EffectEnd
  | rejected
  | raised
  | returned (field : String → Option Json)

/-- The result carries the identity that was admitted. -/
def resultIdentityMatches (admission : CommitAdmissionBundle) (field : String → Option Json) : Bool :=
  admission.expectedIdentity.all (fun entry => field entry.1 == some entry.2) && field "mutates_authority" == some (.bool true)

/-- What the journal is told about an effect that was invoked. -/
def verdict (admission : CommitAdmissionBundle) : EffectEnd → EffectOutcome
  | .rejected => .rejected
  | .raised => .ambiguous
  | .returned field => if resultIdentityMatches admission field then .committed else .ambiguous

/-- What the caller of an execution gets. -/
inductive Result
  | receipt
  | rejected
  | ambiguous
  | refused (message : String)
  deriving DecidableEq

/-- Refusals of the control store are passed on; whatever else the journal raises may have been after its commit. -/
def prepareRaised : BarrierSession.Fault → Result
  | .controlStore message | .recoveryRejected message => .refused message
  | .upgradeIdentity _ | .overflow | .database => .ambiguous

/-- What the caller gets once the journal has taken the outcome. -/
def published : EffectOutcome → Result
  | .committed => .receipt
  | .rejected => .rejected
  | .prepared | .ambiguous => .ambiguous

/-- How far an execution of a capability is. -/
inductive Phase
  | idle
  | entered (capability : Nat) (intent : AuthorityEffectIntent)
  | effected (capability : Nat) (intent : AuthorityEffectIntent) (outcome : EffectOutcome)
  | ended (capability : Nat) (intent : Option AuthorityEffectIntent) (result : Result)

structure Invocation where
  capability : Nat
  intent : AuthorityEffectIntent
  ended : EffectEnd

structure System where
  sessions : Sessions
  consumed : Nat → Bool
  phase : Nat → Phase
  invocations : List Invocation

def System.empty : System := ⟨.empty, fun _ => false, fun _ => .idle, []⟩

inductive Event
  | other (event : BarrierSession.Event)
  | prepare (execution capability : Nat) (fates : Site → Fate) (died : Option Nat)
  | invoke (execution : Nat) (ends : EffectEnd)
  | finish (execution : Nat) (fates : Site → Fate) (died : Option Nat)

section runs

variable (project : String) (capabilities : Nat → CommitAdmissionBundle) (s : System)

def System.enter (execution : Nat) (phase : Phase) : System := { s with phase := Function.update s.phase execution phase }

/-- A call of the journal by an execution. -/
def journalCall (execution : Nat) (fates : Site → Fate) (died : Option Nat) (operation : Operation) : Call :=
  { pid := execution, operation, fates, died }

/-- The reply that reaches the caller, unless its process died. -/
def System.reply (call : Call) : Option (BarrierSession.Outcome Reply) :=
  match call.died with
  | none => some (s.sessions.program project call).outcome
  | some _ => none

def System.called (call : Call) : System := { s with sessions := BarrierSession.step project s.sessions (.call call) }

def System.prepare (execution capability : Nat) (fates : Site → Fate) (died : Option Nat) : System :=
  let call := journalCall execution fates died (.prepareEffect (capabilities capability).request)
  match s.phase execution, s.reply project call with
  | .idle, some (.ok (.effect intent)) => (s.called project call).enter execution (.entered capability intent)
  | .idle, some (.error fault) => (s.called project call).enter execution (.ended capability none (prepareRaised fault))
  | .idle, _ => (s.called project call).enter execution (.ended capability none .ambiguous)
  | _, _ => s

/-- A capability that was consumed already raises before it invokes the effect, which counts as any exception. -/
def System.invoke (execution : Nat) (ends : EffectEnd) : System :=
  match s.phase execution with
  | .entered capability intent =>
      if s.consumed capability then s.enter execution (.effected capability intent .ambiguous)
      else
        { s.enter execution (.effected capability intent (verdict (capabilities capability) ends)) with
          consumed := Function.update s.consumed capability true
          invocations := s.invocations ++ [⟨capability, intent, ends⟩] }
  | _ => s

def receiptOf (capability : Nat) : EffectOutcome → Dict
  | .committed => (capabilities capability).mutationReceipt
  | .prepared | .rejected | .ambiguous => []

def System.finish (execution : Nat) (fates : Site → Fate) (died : Option Nat) : System :=
  match s.phase execution with
  | .effected capability intent outcome =>
      let call := journalCall execution fates died (.finishEffect intent outcome (receiptOf capabilities capability outcome))
      match s.reply project call with
      | some (.ok _) => (s.called project call).enter execution (.ended capability (some intent) (published outcome))
      | _ => (s.called project call).enter execution (.ended capability (some intent) .ambiguous)
  | _ => s

def step : Event → System
  | .other event => { s with sessions := BarrierSession.step project s.sessions event }
  | .prepare execution capability fates died => s.prepare project capabilities execution capability fates died
  | .invoke execution ends => s.invoke capabilities execution ends
  | .finish execution fates died => s.finish project capabilities execution fates died

end runs

/-- The entries of the journal are finished only by the executions that entered them. -/
def Unforged : Event → Prop
  | .other (.call call) => ∀ intent outcome receipt, call.operation ≠ .finishEffect intent outcome receipt
  | _ => True

/-- The entries of a journal with an outcome for the chosen ones that are open. -/
def settled (rows : List EffectRow) (chosen : EffectRow → Bool) (outcome : EffectOutcome) : List EffectRow :=
  rows.map (fun row => if row.outcome == .prepared && chosen row then { row with outcome } else row)

/-- How one commit changes the journal of effects that a call began with. -/
inductive JournalStep (start : List EffectRow) (operation : Operation) : List EffectRow → List EffectRow → Prop
  | kept (rows) : JournalStep start operation rows rows
  | abandoned (rows) : JournalStep start operation rows (settled rows (fun _ => true) .ambiguous)
  | entered {request intent} (asked : operation = .prepareEffect request) (fresh : ∀ row ∈ start, row.intent.operationId ≠ intent.operationId)
      (numbered : intent.intentId = start.length) : JournalStep start operation start (start ++ [⟨intent, .prepared⟩])
  | finished {intent outcome receipt} (asked : operation = .finishEffect intent outcome receipt) :
      JournalStep start operation start (settled start (·.intent.intentId == intent.intentId) outcome)

section journal

variable {project : String} {fates : Site → Fate} {operation : Operation} {db before after : SessionStore}
  {start rows later : List EffectRow} {row : EffectRow} {chosen : EffectRow → Bool} {outcome : EffectOutcome}

theorem fenceSession_effects {supplied : BarrierSessionState} {expected : Nat}
    (fence : fenceSession project before supplied expected = .ok after) : after.effects = before.effects := by
  unfold fenceSession at fence
  split at fence
  · simp only [bind_eq_ok, pure_eq_ok] at fence
    obtain ⟨_, -, rfl⟩ := fence
    rfl
  · simp only [bind_eq_ok, pure_eq_ok] at fence
    obtain ⟨_, -, rfl⟩ := fence
    rfl

theorem journalStep_of_write (write : Write project fates operation db before after) :
    JournalStep db.effects operation before.effects after.effects := by
  cases write with
  | proposed proposes => exact .kept _
  | settled chosen final => exact .kept _
  | fenced raised proposes durable fence =>
    rw [fenceSession_effects fence]
    exact .kept _
  | fencedAll raised fence =>
    simp only [fenceRecovery, bind_eq_ok, pure_eq_ok] at fence
    obtain ⟨_, -, rfl⟩ := fence
    exact .abandoned _
  | recovered asked row alive other => exact .kept _
  | recoveredEffects asked row named unresolved => exact .abandoned _
  | prepared asked admitted =>
    obtain ⟨_, _, -, -, -, -, -, fresh, -, rfl, rfl⟩ := admitEffect_ok admitted
    exact .entered asked fresh rfl
  | finished asked admitted =>
    obtain ⟨_, -, -, -, -, -, -, -, rfl⟩ := admitFinish_ok admitted
    exact .finished asked

theorem settled_intents (rows : List EffectRow) (chosen : EffectRow → Bool) (outcome : EffectOutcome) :
    (settled rows chosen outcome).map (·.intent) = rows.map (·.intent) := by
  rw [settled, List.map_map]
  refine List.map_congr_left fun row _ => ?_
  simp only [Function.comp_apply]
  split <;> rfl

theorem mem_settled (member : row ∈ settled rows chosen outcome) :
    row ∈ rows ∨ ∃ old ∈ rows, old.outcome = .prepared ∧ chosen old = true ∧ row = { old with outcome } := by
  obtain ⟨old, present, rfl⟩ := List.mem_map.mp member
  by_cases picked : old.outcome = .prepared ∧ chosen old = true
  · exact .inr ⟨old, present, picked.1, picked.2, by simp [picked]⟩
  · refine .inl ?_
    rw [if_neg (by simpa using picked)]
    exact present

/-- Entries that are settled stay as they are. -/
theorem settled_keeps (chosen : EffectRow → Bool) (outcome : EffectOutcome) (member : row ∈ rows) :
    ∃ now ∈ settled rows chosen outcome, now.intent = row.intent ∧ (row.outcome ≠ .prepared → now = row) := by
  refine ⟨_, List.mem_map_of_mem member, ?_, fun final => ?_⟩
  · split <;> rfl
  · simp [final]

/-- A journal whose entries are told apart, and whose settled ones are accounted for. -/
structure Ledger (Settles : EffectRow → Prop) (start rows : List EffectRow) : Prop where
  operations : (rows.map (·.intent.operationId)).Nodup
  identifiers : (rows.map (·.intent.intentId)).Nodup
  numbered : ∀ row ∈ rows, row.intent.intentId < rows.length
  settles : ∀ row ∈ rows, row.outcome ≠ .prepared → row.outcome ≠ .ambiguous → Settles row
  keeps : ∀ old ∈ start, ∃ row ∈ rows, row.intent = old.intent ∧ (old.outcome ≠ .prepared → row = old)

variable {Settles : EffectRow → Prop}

theorem Ledger.settled (ledger : Ledger Settles start rows)
    (accounted : ∀ row ∈ rows, chosen row = true → outcome ≠ .prepared → outcome ≠ .ambiguous → Settles { row with outcome }) :
    Ledger Settles start (settled rows chosen outcome) := by
  have field {α : Type} (f : AuthorityEffectIntent → α) :
      (AuthorityMutation.settled rows chosen outcome).map (fun row => f row.intent) = rows.map (fun row => f row.intent) := by
    have same := congrArg (List.map f) (settled_intents rows chosen outcome)
    rwa [List.map_map, List.map_map] at same
  refine ⟨?_, ?_, fun row member => ?_, fun row member final known => ?_, fun old member => ?_⟩
  · rw [field AuthorityEffectIntent.operationId]
    exact ledger.operations
  · rw [field AuthorityEffectIntent.intentId]
    exact ledger.identifiers
  · rw [AuthorityMutation.settled, List.length_map]
    obtain there | ⟨old, there, -, -, rfl⟩ := mem_settled member
    · exact ledger.numbered row there
    · exact ledger.numbered old there
  · obtain there | ⟨old, there, -, picked, rfl⟩ := mem_settled member
    · exact ledger.settles row there final known
    · exact accounted old there picked final known
  · obtain ⟨row, there, same, kept⟩ := ledger.keeps old member
    obtain ⟨now, present, equal, stays⟩ := settled_keeps chosen outcome there
    refine ⟨now, present, equal.trans same, fun final => ?_⟩
    have unchanged := kept final
    rw [stays (by rwa [unchanged]), unchanged]

theorem Ledger.step (ledger : Ledger Settles start rows) (change : JournalStep start operation rows later)
    (accounted : ∀ intent outcome receipt, operation = .finishEffect intent outcome receipt → outcome ≠ .prepared →
      outcome ≠ .ambiguous → ∀ row ∈ start, row.intent.intentId = intent.intentId → Settles { row with outcome }) :
    Ledger Settles start later := by
  cases change with
  | kept => exact ledger
  | abandoned => exact ledger.settled fun _ _ _ _ known => absurd rfl known
  | @entered request intent asked fresh numbered =>
    refine ⟨?_, ?_, fun row member => ?_, fun row member final known => ?_, fun old member => ?_⟩
    · rw [List.map_append, List.nodup_append]
      refine ⟨ledger.operations, List.nodup_singleton _, fun name old other new same => ?_⟩
      obtain ⟨row, member, rfl⟩ := List.mem_map.mp old
      rw [List.map_singleton, List.mem_singleton] at new
      exact fresh row member (same.trans new)
    · rw [List.map_append, List.nodup_append]
      refine ⟨ledger.identifiers, List.nodup_singleton _, fun name old other new same => ?_⟩
      obtain ⟨row, member, rfl⟩ := List.mem_map.mp old
      rw [List.map_singleton, List.mem_singleton] at new
      have below := ledger.numbered row member
      rw [same, new, numbered] at below
      exact Nat.lt_irrefl _ below
    · rw [List.length_append, List.length_singleton]
      obtain there | new := List.mem_append.mp member
      · exact Nat.lt_succ_of_lt (ledger.numbered row there)
      · rw [List.mem_singleton.mp new]
        exact Nat.lt_succ_of_le (Nat.le_of_eq numbered)
    · obtain there | new := List.mem_append.mp member
      · exact ledger.settles row there final known
      · rw [List.mem_singleton.mp new] at final
        exact absurd rfl final
    · exact ⟨old, List.mem_append_left _ member, rfl, fun _ => rfl⟩
  | @finished intent outcome receipt asked =>
    exact ledger.settled fun row member picked final known =>
      accounted intent outcome receipt asked final known row member (beq_iff_eq.mp picked)

end journal

/-- The journal of a system, and the intents in it. -/
def System.rows (s : System) : List EffectRow := s.sessions.store.effects

def System.intents (s : System) : List AuthorityEffectIntent := s.rows.map (·.intent)

section accounts

variable (capabilities : Nat → CommitAdmissionBundle)

/-- The outcome of an entry is what an effect that was invoked for it came to. -/
def Settles (invocations : List Invocation) (row : EffectRow) : Prop :=
  ∃ invocation ∈ invocations, invocation.intent = row.intent ∧
    verdict (capabilities invocation.capability) invocation.ended = row.outcome

/-- What an execution knows about the entry that it made. -/
structure Known (s : System) : Prop where
  entered : ∀ execution capability intent, s.phase execution = .entered capability intent →
    intent ∈ s.intents ∧ intent.operationId = (capabilities capability).operationId ∧
      ∀ invocation ∈ s.invocations, invocation.intent ≠ intent
  apart : ∀ execution other capability second intent, s.phase execution = .entered capability intent →
    s.phase other = .entered second intent → execution = other
  effected : ∀ execution capability intent outcome, s.phase execution = .effected capability intent outcome →
    intent ∈ s.intents ∧ (outcome ≠ .prepared → outcome ≠ .ambiguous → Settles capabilities s.invocations ⟨intent, outcome⟩)
  told : ∀ execution capability entry result, s.phase execution = .ended capability entry result →
    result = .receipt ∨ result = .rejected → ∃ row ∈ s.rows, entry = some row.intent ∧ published row.outcome = result

structure Books (s : System) : Prop where
  seen : Seen s.sessions
  ledger : Ledger (Settles capabilities s.invocations) [] s.rows
  known : Known capabilities s
  listed : ∀ invocation ∈ s.invocations, invocation.intent ∈ s.intents ∧
    invocation.intent.operationId = (capabilities invocation.capability).operationId
  once : (s.invocations.map (·.intent)).Nodup

end accounts

section steps

variable {project : String} {capabilities : Nat → CommitAdmissionBundle} {s : System} {call : Call}

theorem Ledger.restart {Settles : EffectRow → Prop} {rows : List EffectRow} {start : List EffectRow} (ledger : Ledger Settles start rows) :
    Ledger Settles rows rows :=
  ⟨ledger.operations, ledger.identifiers, ledger.numbered, ledger.settles, fun old member => ⟨old, member, rfl, fun _ => rfl⟩⟩

theorem Ledger.mono {Settles Other : EffectRow → Prop} {start rows : List EffectRow} (ledger : Ledger Settles start rows)
    (weaker : ∀ row, Settles row → Other row) : Ledger Other [] rows :=
  ⟨ledger.operations, ledger.identifiers, ledger.numbered, fun row member final known => weaker row (ledger.settles row member final known),
    fun _ absent => absurd absent List.not_mem_nil⟩

/-- Two entries of one number are one. -/
theorem Ledger.same {Settles : EffectRow → Prop} {start rows : List EffectRow} (ledger : Ledger Settles start rows) {first second : EffectRow}
    (there : first ∈ rows) (here : second ∈ rows) (same : first.intent.intentId = second.intent.intentId) : first = second :=
  List.inj_on_of_nodup_map ledger.identifiers there here same

/-- The entry of an intent is the only one of its number. -/
theorem Books.entry (books : Books capabilities s) {intent : AuthorityEffectIntent} (known : intent ∈ s.intents) {row : EffectRow}
    (member : row ∈ s.rows) (same : row.intent.intentId = intent.intentId) : row.intent = intent := by
  obtain ⟨other, there, rfl⟩ := List.mem_map.mp known
  rw [books.ledger.same member there same]

/-- A call of the journal keeps the books, if it finishes only what is accounted for. -/
theorem Books.journal (books : Books capabilities s) (project : String)
    (accounted : ∀ intent outcome receipt, call.operation = .finishEffect intent outcome receipt → outcome ≠ .prepared →
      outcome ≠ .ambiguous → intent ∈ s.intents ∧ Settles capabilities s.invocations ⟨intent, outcome⟩) :
    Seen (s.called project call).sessions ∧ Ledger (Settles capabilities s.invocations) s.rows (s.called project call).rows := by
  refine ⟨books.seen.step (.call call), ?_⟩
  have keeps : ∀ before after : SessionStore, Ledger (Settles capabilities s.invocations) s.rows before.effects →
      Write project call.fates call.operation s.sessions.store before after →
      Ledger (Settles capabilities s.invocations) s.rows after.effects := by
    refine fun before after ledger write => ledger.step (journalStep_of_write write) ?_
    intro intent outcome receipt asked final known row member same
    obtain ⟨there, invocation, invoked, named, agrees⟩ := accounted intent outcome receipt asked final known
    exact ⟨invocation, invoked, named.trans (books.entry there member same).symm, agrees⟩
  exact left_invariant keeps (books.seen.writes project call) books.ledger.restart call.died

/-- What the journal keeps, the executions go on knowing. -/
theorem Books.intents_called (ledger : Ledger (Settles capabilities s.invocations) s.rows (s.called project call).rows)
    {intent : AuthorityEffectIntent} (known : intent ∈ s.intents) : intent ∈ (s.called project call).intents := by
  obtain ⟨old, there, rfl⟩ := List.mem_map.mp known
  obtain ⟨row, present, same, -⟩ := ledger.keeps old there
  exact List.mem_map.mpr ⟨row, present, same⟩

theorem published_final {outcome : EffectOutcome} {result : Result} (told : published outcome = result)
    (final : result = .receipt ∨ result = .rejected) : outcome ≠ .prepared := by
  rintro rfl
  rw [← told] at final
  obtain same | same := final <;> cases same

theorem Books.called (books : Books capabilities s) (project : String) (call : Call)
    (accounted : ∀ intent outcome receipt, call.operation = .finishEffect intent outcome receipt → outcome ≠ .prepared →
      outcome ≠ .ambiguous → intent ∈ s.intents ∧ Settles capabilities s.invocations ⟨intent, outcome⟩) :
    Books capabilities (s.called project call) := by
  obtain ⟨seen, ledger⟩ := books.journal project accounted
  have keeps {intent : AuthorityEffectIntent} (known : intent ∈ s.intents) : intent ∈ (s.called project call).intents :=
    Books.intents_called ledger known
  refine ⟨seen, ledger.mono fun _ holds => holds, ⟨?_, books.known.apart, ?_, ?_⟩, ?_, books.once⟩
  · intro execution capability intent phase
    obtain ⟨there, named, fresh⟩ := books.known.entered execution capability intent phase
    exact ⟨keeps there, named, fresh⟩
  · intro execution capability intent outcome phase
    obtain ⟨there, settles⟩ := books.known.effected execution capability intent outcome phase
    exact ⟨keeps there, settles⟩
  · intro execution capability entry result phase final
    obtain ⟨old, there, named, told⟩ := books.known.told execution capability entry result phase final
    obtain ⟨row, present, same, kept⟩ := ledger.keeps old there
    have unchanged := kept (published_final told final)
    exact ⟨row, present, by rw [unchanged]; exact named, by rw [unchanged]; exact told⟩
  · intro invocation invoked
    obtain ⟨there, named⟩ := books.listed invocation invoked
    exact ⟨keeps there, named⟩

end steps

section moves

variable {project : String} {capabilities : Nat → CommitAdmissionBundle} {s : System} {execution : Nat}

theorem phase_enter {phase : Phase} (other : Nat) : (s.enter execution phase).phase other = if other = execution then phase else s.phase other :=
  Function.update_apply s.phase execution phase other

/-- An execution that goes into a phase about which enough is known keeps the books. -/
theorem Books.enter (books : Books capabilities s) (execution : Nat) (phase : Phase)
    (entered : ∀ capability intent, phase = .entered capability intent →
      intent ∈ s.intents ∧ intent.operationId = (capabilities capability).operationId ∧
        (∀ invocation ∈ s.invocations, invocation.intent ≠ intent) ∧
        ∀ other second, other ≠ execution → s.phase other ≠ .entered second intent)
    (effected : ∀ capability intent outcome, phase = .effected capability intent outcome →
      intent ∈ s.intents ∧ (outcome ≠ .prepared → outcome ≠ .ambiguous → Settles capabilities s.invocations ⟨intent, outcome⟩))
    (told : ∀ capability entry result, phase = .ended capability entry result → result = .receipt ∨ result = .rejected →
      ∃ row ∈ s.rows, entry = some row.intent ∧ published row.outcome = result) :
    Books capabilities (s.enter execution phase) := by
  refine ⟨books.seen, books.ledger, ⟨?_, ?_, ?_, ?_⟩, books.listed, books.once⟩
  · intro other capability intent found
    rw [phase_enter] at found
    split at found
    · obtain ⟨there, named, fresh, -⟩ := entered capability intent found
      exact ⟨there, named, fresh⟩
    · exact books.known.entered other capability intent found
  · intro first second capability later intent found found'
    rw [phase_enter] at found found'
    split at found
    · next here =>
      split at found'
      · next also => rw [here, also]
      · next apart => exact absurd found' ((entered capability intent found).2.2.2 second later apart)
    · next apart =>
      split at found'
      · exact absurd found ((entered later intent found').2.2.2 first capability apart)
      · exact books.known.apart first second capability later intent found found'
  · intro other capability intent outcome found
    rw [phase_enter] at found
    split at found
    · exact effected capability intent outcome found
    · exact books.known.effected other capability intent outcome found
  · intro other capability entry result found
    rw [phase_enter] at found
    split at found
    · exact told capability entry result found
    · exact books.known.told other capability entry result found

/-- A reply that reached the caller left the store as the program leaves it. -/
theorem replied_of_reply (books : Books capabilities s) {call : Call} {reply : Reply} (answered : s.reply project call = some (.ok reply)) :
    Replied project call.operation s.sessions.store reply (s.called project call).sessions.store := by
  unfold System.reply at answered
  split at answered
  · next alive =>
    have returned : Returns s.sessions.store (s.sessions.program project call) reply (s.called project call).sessions.store := by
      refine ⟨Option.some.inj answered, ?_⟩
      change left none _ _ = left call.died _ _
      rw [alive]
    exact perform_returns (books.seen.coherent call.pid) returned
  · cases answered

theorem prepareRaised_final (fault : BarrierSession.Fault) : ¬ (prepareRaised fault = .receipt ∨ prepareRaised fault = .rejected) := by
  cases fault <;> simp [prepareRaised]

theorem Books.prepare (books : Books capabilities s) (capability : Nat) (fates : Site → Fate) (died : Option Nat) :
    Books capabilities (s.prepare project capabilities execution capability fates died) := by
  have called := books.called project (journalCall execution fates died (.prepareEffect (capabilities capability).request)) fun _ _ _ => Operation.noConfusion
  unfold System.prepare
  dsimp only
  split
  · next intent idle answered =>
    refine called.enter execution _ ?_ (fun _ _ _ => Phase.noConfusion) (fun _ _ _ => Phase.noConfusion)
    intro capability' intent' same
    cases same
    have replied := replied_of_reply books answered
    generalize asked : (journalCall execution fates died (.prepareEffect (capabilities capability).request)).operation = operation at replied
    generalize entry : Reply.effect intent = reply at replied
    generalize left : (s.called project (journalCall execution fates died (.prepareEffect (capabilities capability).request))).sessions.store
      = store at replied
    cases replied with
    | read => cases entry
    | proposed proposes final => cases entry
    | settled other row final => cases entry
    | recovered other row alive final => cases entry
    | recoveredEffects other row named => cases entry
    | finished other admitted => cases entry
    | prepared other admitted =>
      cases entry
      cases asked.trans other
      obtain ⟨_, _, -, -, -, -, -, fresh, -, made, rfl⟩ := admitEffect_ok admitted
      have named : intent.operationId = (capabilities capability).operationId := by
        rw [made]
        rfl
      have new : intent ∉ s.intents := by
        intro known
        obtain ⟨row, member, same⟩ := List.mem_map.mp known
        exact fresh row member (by rw [same, named]; rfl)
      refine ⟨?_, named, ?_, ?_⟩
      · rw [System.intents, System.rows, left]
        exact List.mem_map.mpr ⟨_, List.mem_append_right _ (List.mem_singleton_self _), rfl⟩
      · intro invocation invoked same
        exact new (same ▸ (books.listed invocation invoked).1)
      · intro other second _ entered
        exact new (books.known.entered other second intent entered).1
  · next fault idle answered =>
    refine called.enter execution _ (fun _ _ => Phase.noConfusion) (fun _ _ _ => Phase.noConfusion) ?_
    intro capability' entry result same final
    cases same
    exact absurd final (prepareRaised_final fault)
  · refine called.enter execution _ (fun _ _ => Phase.noConfusion) (fun _ _ _ => Phase.noConfusion) ?_
    intro capability' entry result same final
    cases same
    obtain same | same := final <;> cases same
  · exact books

theorem Settles.grow {invocations : List Invocation} {invocation : Invocation} {row : EffectRow}
    (settles : Settles capabilities invocations row) : Settles capabilities (invocations ++ [invocation]) row := by
  obtain ⟨found, member, named, agrees⟩ := settles
  exact ⟨found, List.mem_append_left _ member, named, agrees⟩

/-- An effect is invoked for an intent for which none was. -/
theorem Books.grow (books : Books capabilities s) {capability : Nat} {intent : AuthorityEffectIntent} (ends : EffectEnd)
    (consumed : Nat → Bool) (known : intent ∈ s.intents) (named : intent.operationId = (capabilities capability).operationId)
    (fresh : ∀ invocation ∈ s.invocations, invocation.intent ≠ intent)
    (left : ∀ other second, s.phase other ≠ .entered second intent) :
    Books capabilities { s with consumed, invocations := s.invocations ++ [⟨capability, intent, ends⟩] } := by
  refine ⟨books.seen, books.ledger.mono fun _ settles => settles.grow, ⟨?_, books.known.apart, ?_, books.known.told⟩, ?_, ?_⟩
  · intro other second entry found
    obtain ⟨there, bound, apart⟩ := books.known.entered other second entry found
    refine ⟨there, bound, fun invocation invoked => ?_⟩
    obtain old | new := List.mem_append.mp invoked
    · exact apart invocation old
    · rw [List.mem_singleton.mp new]
      rintro rfl
      exact left other second found
  · intro other second entry outcome found
    obtain ⟨there, settles⟩ := books.known.effected other second entry outcome found
    exact ⟨there, fun final known => (settles final known).grow⟩
  · intro invocation invoked
    obtain old | new := List.mem_append.mp invoked
    · exact books.listed invocation old
    · rw [List.mem_singleton.mp new]
      exact ⟨known, named⟩
  · rw [List.map_append, List.nodup_append]
    refine ⟨books.once, List.nodup_singleton _, fun entry old other new same => ?_⟩
    obtain ⟨invocation, invoked, rfl⟩ := List.mem_map.mp old
    rw [List.map_singleton, List.mem_singleton] at new
    exact fresh invocation invoked (same.trans new)

theorem Books.invoke (books : Books capabilities s) (ends : EffectEnd) : Books capabilities (s.invoke capabilities execution ends) := by
  unfold System.invoke
  split
  · next capability intent phase =>
    obtain ⟨known, named, fresh⟩ := books.known.entered execution capability intent phase
    split
    · refine books.enter execution _ (fun _ _ => Phase.noConfusion) ?_ (fun _ _ _ => Phase.noConfusion)
      intro _ _ outcome same
      cases same
      exact ⟨known, fun _ final => absurd rfl final⟩
    · -- the execution leaves its phase before the invocation is written down, so that nobody waits for the intent
      have away : Books capabilities (s.enter execution (.effected capability intent .ambiguous)) := by
        refine books.enter execution _ (fun _ _ => Phase.noConfusion) ?_ (fun _ _ _ => Phase.noConfusion)
        intro _ _ outcome same
        cases same
        exact ⟨known, fun _ final => absurd rfl final⟩
      have alone : ∀ other second, (s.enter execution (.effected capability intent .ambiguous)).phase other ≠ .entered second intent := by
        intro other second found
        rw [phase_enter] at found
        split at found
        · cases found
        · next apart => exact apart (books.known.apart other execution second capability intent found phase)
      have grown := away.grow ends (Function.update s.consumed capability true) known named fresh alone
      have invoked := grown.enter execution (.effected capability intent (verdict (capabilities capability) ends))
        (fun _ _ => Phase.noConfusion) ?_ (fun _ _ _ => Phase.noConfusion)
      · simpa [System.enter] using invoked
      · intro _ _ outcome same
        cases same
        exact ⟨known, fun _ _ => ⟨_, List.mem_append_right _ (List.mem_singleton_self _), rfl, rfl⟩⟩
  · exact books

/-- What was finished is in the journal with the outcome that was published. -/
theorem Books.finished (books : Books capabilities s) {call : Call} {intent : AuthorityEffectIntent} {outcome : EffectOutcome}
    {receipt : Dict} {reply : Reply} (known : intent ∈ s.intents) (asked : call.operation = .finishEffect intent outcome receipt)
    (answered : s.reply project call = some (.ok reply)) :
    ∃ row ∈ (s.called project call).rows, row.intent = intent ∧ row.outcome = outcome := by
  have replied := replied_of_reply books answered
  rw [asked] at replied
  generalize same : Operation.finishEffect intent outcome receipt = operation at replied
  generalize after : (s.called project call).sessions.store = store at replied
  cases replied with
  | read other => obtain other | ⟨_, other⟩ := other <;> cases same.trans other
  | proposed proposes final =>
    subst same
    cases proposes with
    | first empty supplies => exact supplies.elim
    | replacing row readable released supplies => exact supplies.elim
    | advancing row readable supplies => exact supplies.elim
    | reconciling row readable ambiguous supplies => exact supplies.elim
  | settled other row final => cases same.trans other
  | recovered other row alive final => cases same.trans other
  | recoveredEffects other row named => cases same.trans other
  | prepared other admitted => cases same.trans other
  | finished other admitted =>
    cases same.trans other
    obtain ⟨_, -, -, -, -, -, one, -, made⟩ := admitFinish_ok admitted
    obtain ⟨open_, waiting⟩ := List.exists_mem_of_length_pos (Nat.lt_of_lt_of_eq Nat.zero_lt_one one.symm)
    simp only [SessionStore.preparedEffects, List.mem_filter, beq_iff_eq] at waiting
    obtain ⟨⟨member, unsettled⟩, number⟩ := waiting
    have named : open_.intent = intent := books.entry known member number
    refine ⟨{ open_ with outcome := outcome }, ?_, named, rfl⟩
    rw [System.rows, after, made]
    exact List.mem_map.mpr ⟨open_, member, by simp [unsettled, number]⟩

theorem Books.finish (books : Books capabilities s) (fates : Site → Fate) (died : Option Nat) :
    Books capabilities (s.finish project capabilities execution fates died) := by
  unfold System.finish
  split
  · next capability intent outcome phase =>
    obtain ⟨known, settles⟩ := books.known.effected execution capability intent outcome phase
    have called := books.called project
      (journalCall execution fates died (.finishEffect intent outcome (receiptOf capabilities capability outcome))) <| by
        rintro _ _ _ ⟨⟩ final notAmbiguous
        exact ⟨known, settles final notAmbiguous⟩
    dsimp only
    split
    · next reply answered =>
      refine called.enter execution _ (fun _ _ => Phase.noConfusion) (fun _ _ _ => Phase.noConfusion) ?_
      intro _ entry result same final
      cases same
      obtain ⟨row, member, named, agrees⟩ := books.finished known rfl answered
      exact ⟨row, member, congrArg some named.symm, by rw [agrees]⟩
    · refine called.enter execution _ (fun _ _ => Phase.noConfusion) (fun _ _ _ => Phase.noConfusion) ?_
      intro _ entry result same final
      cases same
      obtain same | same := final <;> cases same
  · exact books

theorem Books.step (books : Books capabilities s) {event : Event} (unforged : Unforged event) :
    Books capabilities (step project capabilities s event) := by
  cases event with
  | other event =>
    cases event with
    | look pid =>
      have same : (s.sessions.look project pid).store = s.sessions.store := look_store s.sessions pid
      obtain ⟨seen, ledger, ⟨entered, apart, effected, told⟩, listed, once⟩ := books
      refine ⟨seen.step (.look pid), ?_, ⟨?_, apart, ?_, ?_⟩, ?_, once⟩ <;>
        simpa only [AuthorityMutation.step, BarrierSession.step, System.intents, System.rows, same]
    | call call =>
      refine books.called project call fun intent outcome receipt asked => ?_
      exact absurd asked (unforged intent outcome receipt)
  | prepare execution capability fates died => exact books.prepare capability fates died
  | invoke execution ends => exact books.invoke ends
  | finish execution fates died => exact books.finish fates died

theorem books_empty : Books capabilities .empty where
  seen := seen_empty
  ledger := ⟨List.nodup_nil, List.nodup_nil, List.forall_mem_nil _, List.forall_mem_nil _, List.forall_mem_nil _⟩
  known := ⟨fun _ _ _ => Phase.noConfusion, fun _ _ _ _ _ => Phase.noConfusion, fun _ _ _ _ => Phase.noConfusion,
    fun _ _ _ _ => Phase.noConfusion⟩
  listed := List.forall_mem_nil _
  once := List.nodup_nil

end moves

/-- The session takes no effect. -/
def NotHeld (row : Option BarrierSessionState) : Prop := ∀ current, row = some current → current.status ≠ .held

/-- What a step may do to the journal. An entry is made only under a held session that has no open entry, and one that is
given up leaves a session that is not held. -/
structure Fences (before after : SessionStore) : Prop where
  entered : ∀ row ∈ after.effects, row.intent ∉ before.effects.map (·.intent) →
    before.preparedEffects = [] ∧ ∃ current, before.row = some current ∧ current.status = .held
  abandoned : ∀ row ∈ after.effects, row.outcome = .ambiguous → row ∈ before.effects ∨ NotHeld after.row

section fences

variable {project : String} {fates : Site → Fate} {operation : Operation} {db before after : SessionStore}
  {current : BarrierSessionState}

theorem fences_refl (db : SessionStore) : Fences db db :=
  ⟨fun _ member new => absurd (List.mem_map_of_mem member) new, fun _ member _ => .inl member⟩

theorem notHeld_some (other : current.status ≠ .held) : NotHeld (some current) := by
  rintro _ ⟨⟩
  exact other

theorem notHeld_fenceSession {supplied : BarrierSessionState} {expected : Nat}
    (fence : fenceSession project before supplied expected = .ok after) : NotHeld after.row := by
  unfold fenceSession at fence
  split at fence
  · simp only [bind_eq_ok, BarrierSessionState.make_eq_ok, pure_eq_ok] at fence
    obtain ⟨state, made, rfl⟩ := fence
    refine notHeld_some ?_
    rw [made]
    rintro ⟨⟩
  · simp only [bind_eq_ok, pure_eq_ok] at fence
    obtain ⟨_, -, rfl⟩ := fence
    refine notHeld_some ?_
    rintro ⟨⟩

theorem notHeld_fenceRecovery (fence : fenceRecovery project before = .ok after) : NotHeld after.row := by
  simp only [fenceRecovery, bind_eq_ok, pure_eq_ok] at fence
  obtain ⟨latest, -, rfl⟩ := fence
  refine notHeld_some ?_
  split
  · rintro ⟨⟩
  · next other =>
    intro held
    rw [held] at other
    exact other rfl

/-- A commit that changes no entry, or leaves a session that is not held, keeps what holds of the call. -/
theorem Fences.next (fences : Fences db before) (intents : after.effects.map (·.intent) = before.effects.map (·.intent))
    (abandoned : NotHeld after.row ∨ after.row = before.row ∧ after.effects = before.effects) : Fences db after := by
  refine ⟨fun row member new => ?_, fun row member ambiguous => ?_⟩
  · have listed : row.intent ∈ before.effects.map (·.intent) := intents ▸ List.mem_map_of_mem member
    obtain ⟨old, there, same⟩ := List.mem_map.mp listed
    exact fences.entered old there (by rwa [same])
  · obtain notHeld | ⟨sameRow, same⟩ := abandoned
    · exact .inr notHeld
    · rw [sameRow]
      exact fences.abandoned row (same ▸ member) ambiguous

theorem fences_write (fences : Fences db before) (write : Write project fates operation db before after) : Fences db after := by
  cases write with
  | proposed proposes => exact ⟨fences.entered, fun row member _ => .inl member⟩
  | settled chosen final => exact fences.next rfl (.inr ⟨rfl, rfl⟩)
  | fenced raised proposes durable fence =>
    exact fences.next (by rw [fenceSession_effects fence]) (.inl (notHeld_fenceSession fence))
  | fencedAll raised fence =>
    have notHeld := notHeld_fenceRecovery fence
    simp only [fenceRecovery, bind_eq_ok, pure_eq_ok] at fence
    obtain ⟨_, -, rfl⟩ := fence
    exact fences.next (settled_intents _ _ _) (.inl notHeld)
  | recovered asked row alive other =>
    refine fences.next rfl (.inl (notHeld_some ?_))
    rintro ⟨⟩
  | recoveredEffects asked row named unresolved =>
    refine fences.next (settled_intents _ _ _) (.inl (notHeld_some ?_))
    split
    · rintro ⟨⟩
    · next other => exact other
  | prepared asked admitted =>
    obtain ⟨current, _, row, -, held, -, waiting, -, -, -, rfl⟩ := admitEffect_ok admitted
    refine ⟨fun _ _ _ => ⟨waiting, current, row, held⟩, fun row member ambiguous => ?_⟩
    obtain there | new := List.mem_append.mp member
    · exact .inl there
    · rw [List.mem_singleton.mp new] at ambiguous
      cases ambiguous
  | @finished intent outcome receipt _ next asked admitted =>
    obtain ⟨current, -, -, -, -, -, -, made, rfl⟩ := admitFinish_ok admitted
    by_cases ambiguous : outcome = .ambiguous
    · refine fences.next (settled_intents _ _ _) (.inl ?_)
      rw [made, if_pos ambiguous]
      refine notHeld_some ?_
      rintro ⟨⟩
    · refine ⟨fun effect member new => ?_, fun effect member given => ?_⟩
      · have listed := List.mem_map_of_mem (f := EffectRow.intent) member
        rw [show (db.settleEffects _ outcome).map EffectRow.intent = db.effects.map EffectRow.intent from settled_intents _ _ _] at listed
        exact absurd listed new
      · obtain there | ⟨_, -, -, -, rfl⟩ := mem_settled (show effect ∈ settled db.effects _ outcome from member)
        · exact .inl there
        · exact absurd given ambiguous

variable {s : System} {capabilities : Nat → CommitAdmissionBundle}

theorem fences_call (seen : Seen s.sessions) (call : Call) : Fences s.sessions.store (s.called project call).sessions.store :=
  left_invariant (fun _ _ fences write => fences_write fences write) (seen.writes project call) (fences_refl s.sessions.store) call.died

theorem fences_step (seen : Seen s.sessions) (event : Event) :
    Fences s.sessions.store (step project capabilities s event).sessions.store := by
  cases event with
  | other event =>
    cases event with
    | look pid =>
      have same : (step project capabilities s (.other (.look pid))).sessions.store = s.sessions.store := look_store s.sessions pid
      rw [same]
      exact fences_refl _
    | call call => exact fences_call seen call
  | prepare execution capability fates died =>
    change Fences _ (s.prepare project capabilities execution capability fates died).sessions.store
    unfold System.prepare
    dsimp only
    split
    · exact fences_call seen _
    · exact fences_call seen _
    · exact fences_call seen _
    · exact fences_refl _
  | invoke execution ends =>
    change Fences _ (s.invoke capabilities execution ends).sessions.store
    unfold System.invoke
    split
    · split <;> exact fences_refl _
    · exact fences_refl _
  | finish execution fates died =>
    change Fences _ (s.finish project capabilities execution fates died).sessions.store
    unfold System.finish
    split
    · dsimp only
      split <;> exact fences_call seen _
    · exact fences_refl _

end fences

/-- The account of the effects that a system has invoked. -/
structure Accounted (capabilities : Nat → CommitAdmissionBundle) (s : System) : Prop where
  once : (s.invocations.map (·.intent.operationId)).Nodup
  bound : ∀ invocation ∈ s.invocations, invocation.intent.operationId = (capabilities invocation.capability).operationId
  settled : ∀ row ∈ s.rows, row.outcome = .committed ∨ row.outcome = .rejected → ∃ invocation ∈ s.invocations,
    invocation.intent = row.intent ∧ verdict (capabilities invocation.capability) invocation.ended = row.outcome
  open_ : ∀ invocation ∈ s.invocations, ∃ row ∈ s.rows, row.intent = invocation.intent ∧
    (row.outcome = verdict (capabilities invocation.capability) invocation.ended ∨ row.outcome = .prepared ∨ row.outcome = .ambiguous)
  told : ∀ execution capability entry result, s.phase execution = .ended capability entry result →
    result = .receipt ∨ result = .rejected → ∃ row ∈ s.rows, entry = some row.intent ∧ published row.outcome = result

theorem Books.accounted {capabilities : Nat → CommitAdmissionBundle} {s : System} (books : Books capabilities s) :
    Accounted capabilities s := by
  have settled : ∀ row ∈ s.rows, row.outcome ≠ .prepared → row.outcome ≠ .ambiguous → Settles capabilities s.invocations row :=
    books.ledger.settles
  refine ⟨?_, fun invocation invoked => (books.listed invocation invoked).2, fun row member final => ?_, fun invocation invoked => ?_,
    books.known.told⟩
  · -- intents of one operation are one, as the journal has each operation once
    have apart : (s.intents.map (·.operationId)).Nodup := by
      rw [System.intents, List.map_map]
      exact books.ledger.operations
    rw [List.nodup_map_iff_inj_on (List.Nodup.of_map _ books.once)]
    intro first there second here same
    refine List.inj_on_of_nodup_map books.once there here ?_
    exact List.inj_on_of_nodup_map apart (books.listed first there).1 (books.listed second here).1 same
  · refine settled row member ?_ ?_ <;> rintro other <;> rw [other] at final <;> obtain same | same := final <;> cases same
  · obtain ⟨row, member, named⟩ := List.mem_map.mp (books.listed invocation invoked).1
    refine ⟨row, member, named, ?_⟩
    by_cases waiting : row.outcome = .prepared
    · exact .inr (.inl waiting)
    · by_cases given : row.outcome = .ambiguous
      · exact .inr (.inr given)
      · obtain ⟨other, invoked', same, agrees⟩ := settled row member waiting given
        have here : other = invocation := List.inj_on_of_nodup_map books.once invoked' invoked (same.trans named)
        exact .inl (by rw [← here, agrees])

/-- However executions of capabilities, crashes and other calls of the store interleave, the effect of an operation is invoked at
most once. The journal has it as committed only if its result carried what was admitted, as rejected only if it refused before
it began, and otherwise as open or ambiguous, which keeps every further effect out. -/
theorem effects_accounted_run (project : String) (capabilities : Nat → CommitAdmissionBundle) {events : List Event}
    (unforged : ∀ event ∈ events, Unforged event) :
    Accounted capabilities (Run.final (step project capabilities) .empty events) ∧
      Run.Steps (step project capabilities) (fun s _ after => Fences s.sessions.store after.sessions.store) .empty events := by
  have along : Run.Along (step project capabilities) (fun _ event => Unforged event) .empty events := Run.along_of_forall _ unforged
  have keeps : ∀ s event, Books capabilities s → Unforged event → Books capabilities (step project capabilities s event) :=
    fun _ _ books allowed => books.step allowed
  constructor
  · exact (Run.invariant (step project capabilities) keeps events .empty books_empty along).accounted
  · exact Run.steps_of_invariant (step project capabilities) keeps (fun _ event books _ => fences_step books.seen event)
      events .empty books_empty along

def sampleAdmission : CommitAdmissionBundle where
  backend := "sqlite"
  target := "new"
  operationId := "operation-1"
  fencingToken := "token-attempt-1"
  stateRevision := 1
  barrierId := "barrier-attempt-1"
  artifactIdentity := "artifact-1"
  manifestIdentity := "manifest-1"
  selectorIdentity := "selector-1"
  runtimeIdentity := "runtime-1"
  backendKnown := .inr rfl
  targetKnown := .inl rfl
  named := by decide
  positive := Nat.le_refl 1

/-- An effect raises under a held session, and is finished as ambiguous. -/
def sampleRaised : List Event :=
  [.other sampleCreate, .prepare 0 0 (fun _ => .done) none, .invoke 0 .raised, .finish 0 (fun _ => .done) none]

theorem raised_accounted :
    Accounted (fun _ => sampleAdmission) (Run.final (step sampleProject fun _ => sampleAdmission) .empty sampleRaised) ∧
      Run.Steps (step sampleProject fun _ => sampleAdmission) (fun s _ after => Fences s.sessions.store after.sessions.store) .empty
        sampleRaised := by
  refine effects_accounted_run sampleProject (fun _ => sampleAdmission) fun event member => ?_
  simp only [sampleRaised, List.mem_cons, List.not_mem_nil, or_false] at member
  obtain rfl | rfl | rfl | rfl := member
  · intro intent outcome receipt asked
    cases asked
  · trivial
  · trivial
  · trivial

end Coordinator.AuthorityMutation
