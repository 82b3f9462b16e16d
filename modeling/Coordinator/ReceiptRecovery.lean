import Coordinator.ReceiptWorker

/-! What holds of the receipts at every moment of every run of the workers, wherever they crash: no
mutation is begun twice, and every outcome on record is backed by the commits of that time. -/

namespace Coordinator.ReceiptWorker
open Kit Receipts

def Origin.rest : Origin → List Intent
  | failed _ => []
  | interrupted rest => rest

/-- The intents that the worker has in hand. -/
def Stage.inHand : Stage → Option (List Intent)
  | down => none
  | ready => some []
  | reserved intent | executed intent _ | verified intent _ _ => some [intent]
  | searching intent origin | found intent origin _ | confirmed intent origin _ _ | absent intent origin
  | unknown intent origin => some (intent :: origin.rest)

section evidence

variable (core : Core) (past : List Repository)

/-- The worker has verified a commit as the effect of an intent. -/
def Verified (intent : Intent) (oid : String) (revision : Int) : Prop :=
  ∃ repository ∈ past, verifyLocalCommit core repository intent oid = .ok revision

/-- The worker has found no commit for a receipt. -/
def Missing (receiptId : String) : Prop := ∃ repository ∈ past, findReceiptCommit repository receiptId = .ok none

def ambiguities : List String := ["COMMIT_EVIDENCE_UNKNOWN", "MUTATION_OUTCOME_UNKNOWN", "INTERRUPTED_BEFORE_COMMIT"]

/-- What backs the outcome of a row. -/
def Backed (row : Intent) : Prop :=
  match row.phase with
  | .queuedLocal | .running => row.outcome = (none, none, none)
  | .completedLocal | .publishedRemote =>
      ∃ oid revision, row.outcome = (some oid, some revision, none) ∧ Verified core past row oid revision
  | .rejected => row.outcome = (none, none, some "ADMISSION_REJECTED") ∧ Missing past row.receiptId
  | .ambiguous => ∃ code ∈ ambiguities, row.outcome = (none, none, some code)

/-- What clients and publishers do to a row. -/
inductive Apart : Intent → Intent → Prop
  | same (row : Intent) : Apart row row
  | published {row next : Intent} : row.phase = .completedLocal → next.request = row.request → next.outcome = row.outcome →
      (next.phase = .completedLocal ∨ next.phase = .publishedRemote) → Apart row next

/-- What backs the next step of the worker. -/
def Stage.Backed : Stage → Prop
  | verified intent oid revision | confirmed intent _ oid revision => Verified core past intent oid revision
  | absent intent _ => Missing past intent.receiptId
  | _ => True

end evidence

structure Consistent (core : Core) (system : System) : Prop where
  kept : Kept system.store
  present : system.repository ∈ system.past
  once : (system.executed.map fun run => run.1.receiptId).Nodup
  begun : ∀ run ∈ system.executed, ∃ row ∈ system.store.intents, row.receiptId = run.1.receiptId ∧ row.phase ≠ .queuedLocal
  fresh : ∀ intent, system.stage = .reserved intent → ∀ run ∈ system.executed, run.1.receiptId ≠ intent.receiptId
  rows : ∀ row ∈ system.store.intents, Backed core system.past row
  stage : system.stage.Backed core system.past
  hand : ∀ rows, system.stage.inHand = some rows →
    rows.Nodup ∧ ∀ row, row ∈ rows ↔ row ∈ system.store.intents ∧ row.phase = .running

section backing

variable {core : Core} {past later : List Repository} {row next : Intent}

/-- The checks of a commit read what is asked for and nothing else of the row. -/
theorem verifyLocalCommit_congr (same : next.request = row.request) (repository : Repository) (oid : String) :
    verifyLocalCommit core repository next oid = verifyLocalCommit core repository row oid := by
  cases row
  cases next
  simp only [Intent.request, Prod.mk.injEq] at same
  obtain ⟨rfl, rfl, rfl, rfl, rfl, rfl, rfl⟩ := same
  rfl

theorem Verified.mono {oid : String} {revision : Int} (verified : Verified core past row oid revision)
    (grows : past ⊆ later) : Verified core later row oid revision := by
  obtain ⟨repository, member, answer⟩ := verified
  exact ⟨repository, grows member, answer⟩

theorem Missing.mono {receiptId : String} (missing : Missing past receiptId) (grows : past ⊆ later) :
    Missing later receiptId := by
  obtain ⟨repository, member, answer⟩ := missing
  exact ⟨repository, grows member, answer⟩

theorem Verified.congr {oid : String} {revision : Int} (verified : Verified core past row oid revision)
    (same : next.request = row.request) : Verified core past next oid revision := by
  obtain ⟨repository, member, answer⟩ := verified
  exact ⟨repository, member, (verifyLocalCommit_congr same repository oid).trans answer⟩

theorem Backed.mono (backed : Backed core past row) (grows : past ⊆ later) : Backed core later row := by
  unfold Backed at backed ⊢
  cases phase : row.phase with
  | queuedLocal | running | ambiguous => simpa only [phase] using backed
  | completedLocal | publishedRemote =>
    simp only [phase] at backed ⊢
    obtain ⟨oid, revision, outcome, verified⟩ := backed
    exact ⟨oid, revision, outcome, verified.mono grows⟩
  | rejected =>
    simp only [phase] at backed ⊢
    exact ⟨backed.1, backed.2.mono grows⟩

theorem Backed.apart (backed : Backed core past row) (apart : Apart row next) : Backed core past next := by
  cases apart with
  | same => exact backed
  | published completed request outcome published =>
    unfold Backed at backed ⊢
    rw [completed] at backed
    obtain ⟨oid, revision, known, verified⟩ := backed
    rcases published with published | published
    all_goals
      rw [published]
      exact ⟨oid, revision, outcome.trans known, verified.congr request⟩

theorem Apart.begun (apart : Apart row next) (begun : row.phase ≠ .queuedLocal) : next.phase ≠ .queuedLocal := by
  cases apart with
  | same => exact begun
  | published _ _ _ published =>
    rcases published with published | published
    all_goals
      rw [published]
      exact nofun

theorem Apart.running_iff (apart : Apart row next) (running : row.phase = .running ∨ next.phase = .running) : next = row := by
  cases apart with
  | same => rfl
  | published completed _ _ published =>
    rcases running with running | running
    · cases completed.symm.trans running
    · rcases published with published | published
      all_goals cases published.symm.trans running

theorem Stage.Backed.mono {stage : Stage} (backed : stage.Backed core past) (grows : past ⊆ later) :
    stage.Backed core later := by
  cases stage with
  | verified intent oid revision => exact Verified.mono backed grows
  | confirmed intent origin oid revision => exact Verified.mono backed grows
  | absent intent origin => exact Missing.mono backed grows
  | _ => trivial

end backing

section worker

variable {core : Core} {system : System} {world : World}

theorem tried_eq_ok {α : Type} {failure : Option String} {answer : Attempt α} {value : α}
    (ok : tried failure answer = .ok value) : answer = .ok value := by
  cases failure with
  | some error => cases ok
  | none => exact ok

theorem stored_eq_ok {α : Type} {outcome : Receipts.Outcome α} {value : α} (ok : System.stored world outcome = .ok value) :
    outcome = .ok value := by
  have answered := tried_eq_ok ok
  cases outcome with
  | error fault => cases answered
  | ok result =>
    cases answered
    rfl

theorem verify_eq_ok {intent : Intent} {oid : String} {revision : Int}
    (ok : system.verify core world intent oid = .ok revision) :
    verifyLocalCommit core system.repository intent oid = .ok revision := by
  rw [System.verify] at ok
  exact tried_eq_ok ok

theorem recoverRunning_inHand (rest : List Intent) : (recoverRunning rest).inHand = some rest := by
  cases rest <;> rfl

theorem next_inHand (origin : Origin) : origin.next.inHand = some origin.rest := by
  cases origin with
  | failed error => rfl
  | interrupted rest => exact recoverRunning_inHand rest

theorem recoverRunning_backed (rest : List Intent) (past : List Repository) : (recoverRunning rest).Backed core past := by
  cases rest <;> exact trivial

theorem next_backed (origin : Origin) (past : List Repository) : origin.next.Backed core past := by
  cases origin with
  | failed error => exact trivial
  | interrupted rest => exact recoverRunning_backed rest past

theorem recoverRunning_not_reserved (rest : List Intent) (intent : Intent) : recoverRunning rest ≠ .reserved intent := by
  cases rest <;> exact nofun

theorem next_not_reserved (origin : Origin) (intent : Intent) : origin.next ≠ .reserved intent := by
  cases origin with
  | failed error => exact nofun
  | interrupted rest => exact recoverRunning_not_reserved rest intent

section mutation

variable {intent : Intent} (answer : Attempt String)

theorem mutated_inHand : (mutated intent answer).inHand = some [intent] := by
  cases answer <;> rfl

theorem mutated_backed (past : List Repository) : (mutated intent answer).Backed core past := by
  cases answer <;> exact trivial

theorem mutated_not_reserved (other : Intent) : mutated intent answer ≠ .reserved other := by
  cases answer <;> exact nofun

end mutation

namespace Consistent

/-- The worker goes on with what it has in hand, or dies. -/
theorem goes (consistent : Consistent core system) {stage : Stage}
    (same : stage.inHand = none ∨ stage.inHand = system.stage.inHand) (backed : stage.Backed core system.past)
    (unreserved : ∀ intent, stage ≠ .reserved intent) : Consistent core { system with stage } where
  kept := consistent.kept
  present := consistent.present
  once := consistent.once
  begun := consistent.begun
  fresh intent reserved := absurd reserved (unreserved intent)
  rows := consistent.rows
  stage := backed
  hand rows held := by
    rcases same with none | same
    · cases none.symm.trans held
    · exact consistent.hand rows (same.symm.trans held)

theorem changed (consistent : Consistent core system) (repository : Repository) :
    Consistent core { system with repository, past := system.past ++ [repository] } where
  kept := consistent.kept
  present := by simp
  once := consistent.once
  begun := consistent.begun
  fresh := consistent.fresh
  rows row member := (consistent.rows row member).mono (by simp)
  stage := consistent.stage.mono (by simp)
  hand := consistent.hand

theorem crash (consistent : Consistent core system) : Consistent core { system with stage := .down } :=
  consistent.goes (Or.inl rfl) trivial (by simp)

theorem start (consistent : Consistent core system) :
    Consistent core { system with stage := recoverRunning (running system.store) } where
  kept := consistent.kept
  present := consistent.present
  once := consistent.once
  begun := consistent.begun
  fresh intent reserved := absurd reserved (recoverRunning_not_reserved _ intent)
  rows := consistent.rows
  stage := recoverRunning_backed _ _
  hand rows held := by
    rw [recoverRunning_inHand, Option.some.injEq] at held
    subst held
    have perm := List.perm_insertionSort (fun a b => ascending a.startedAt ≤ ascending b.startedAt)
      (system.store.intents.filter (fun row => row.phase = .running))
    refine ⟨perm.nodup_iff.mpr ((List.Nodup.of_map _ consistent.kept.distinct).filter _), fun row => ?_⟩
    rw [running, perm.mem_iff, List.mem_filter, decide_eq_true_iff]

/-- An intent in hand is closed with an outcome that is backed. -/
theorem closed (consistent : Consistent core system) {intent current : Intent} {rest : List Intent} {after : Store}
    {phase : Phase} {commitOid : Option String} {resultRevision : Option Int} {errorCode : Option String} {stage : Stage}
    (held : system.stage.inHand = some (intent :: rest)) (accepted : Accepted system.store after)
    (finished : finishRunning system.store intent.receiptId phase commitOid resultRevision errorCode = .ok (after, current))
    (next : Phase.Next .running phase)
    (backed : Backed core system.past { intent with phase, commitOid, resultRevision, errorCode })
    (left : stage.inHand = some rest) (stageBacked : stage.Backed core system.past)
    (unreserved : ∀ intent, stage ≠ .reserved intent) : Consistent core { system with store := after, stage } := by
  obtain ⟨distinct, inHand⟩ := consistent.hand _ held
  obtain ⟨member, active⟩ := (inHand intent).mp List.mem_cons_self
  have written : after = system.store.update intent.receiptId .running
      fun row => { row with phase, commitOid, resultRevision, errorCode } := by
    obtain ⟨found, located, ⟨closed, -⟩ | ⟨-, written⟩⟩ := finishRunning_eq_ok finished
    · have selected : system.store.select intent.receiptId = some intent := Table.select_of_mem consistent.kept.distinct member
      cases located.symm.trans selected
      rw [active] at closed
      subst closed
      cases next
    · exact written
  have rowOf (row : Intent) : row ∈ after.intents ↔
      row = { intent with phase, commitOid, resultRevision, errorCode } ∨ row ∈ system.store.intents ∧ row ≠ intent := by
    rw [written]
    exact Table.mem_update_of_mem consistent.kept.distinct member (by simpa using active)
  have ended : phase ≠ .running ∧ phase ≠ .queuedLocal := by
    cases next <;> exact ⟨nofun, nofun⟩
  refine ⟨accepted.kept consistent.kept, consistent.present, consistent.once, fun run begun => ?_,
    fun intent reserved => absurd reserved (unreserved intent), fun row there => ?_, stageBacked, fun rows holds => ?_⟩
  · obtain ⟨row, there, named, begun⟩ := consistent.begun run begun
    by_cases same : row = intent
    · subst same
      exact ⟨_, (rowOf _).mpr (Or.inl rfl), named, ended.2⟩
    · exact ⟨row, (rowOf row).mpr (Or.inr ⟨there, same⟩), named, begun⟩
  · rcases (rowOf row).mp there with rfl | ⟨old, -⟩
    · exact backed
    · exact consistent.rows row old
  · cases left.symm.trans holds
    obtain ⟨outside, distinct⟩ := List.nodup_cons.mp distinct
    refine ⟨distinct, fun row => ?_⟩
    rw [rowOf]
    constructor
    · intro inRest
      obtain ⟨there, running⟩ := (inHand row).mp (List.mem_cons_of_mem _ inRest)
      exact ⟨Or.inr ⟨there, fun same => outside (same ▸ inRest)⟩, running⟩
    · rintro ⟨rfl | ⟨there, apart⟩, running⟩
      · exact absurd running ended.1
      · exact (List.mem_cons.mp ((inHand row).mpr ⟨there, running⟩)).resolve_left apart

section records

variable {intent row : Intent} {rest : List Intent} {after : Store} {stage : Stage}
  (held : system.stage.inHand = some (intent :: rest)) (left : stage.inHand = some rest)
  (backed : stage.Backed core system.past) (unreserved : ∀ intent, stage ≠ .reserved intent)

include held left backed unreserved

theorem completed (consistent : Consistent core system) {oid : String} {revision : Int}
    (verified : Verified core system.past intent oid revision)
    (recorded : recordLocalCommit system.store intent.receiptId oid revision = .ok (after, row)) :
    Consistent core { system with store := after, stage } := by
  have accepted := recordLocalCommit_accepted consistent.kept.distinct recorded
  obtain ⟨-, recorded⟩ := raiseIf_bind_ok.mp recorded
  obtain ⟨_, -, recorded⟩ := bind_eq_ok.mp recorded
  obtain ⟨-, finished⟩ := raiseIf_bind_ok.mp recorded
  exact consistent.closed held accepted finished .completed ⟨oid, revision, rfl, verified.congr rfl⟩ left backed unreserved

theorem rejected (consistent : Consistent core system) (missing : Missing system.past intent.receiptId)
    (recorded : recordRejection system.store intent.receiptId "ADMISSION_REJECTED" = .ok (after, row)) :
    Consistent core { system with store := after, stage } := by
  obtain ⟨-, finished⟩ := raiseIf_bind_ok.mp recorded
  have accepted := finishRunning_accepted .rejected (by simp) finished
  exact consistent.closed held accepted finished .rejected ⟨rfl, missing⟩ left backed unreserved

theorem ambiguous (consistent : Consistent core system) {code : String} (known : code ∈ ambiguities)
    (recorded : recordAmbiguity system.store intent.receiptId code = .ok (after, row)) :
    Consistent core { system with store := after, stage } := by
  obtain ⟨-, finished⟩ := raiseIf_bind_ok.mp recorded
  have accepted := finishRunning_accepted .ambiguous (by simp) finished
  exact consistent.closed held accepted finished .ambiguous ⟨code, known, rfl⟩ left backed unreserved

end records

/-- The last step for an intent leads to the next one, or the worker dies in it. -/
theorem closing (consistent : Consistent core system) (origin : Origin) {outcome : Receipts.Outcome (Store × Intent)}
    (closes : ∀ after row, outcome = .ok (after, row) → Consistent core { system with store := after, stage := origin.next }) :
    Consistent core (system.closing world origin outcome) := by
  unfold System.closing
  split
  · next answered => exact closes _ _ (stored_eq_ok answered)
  · exact consistent.crash

/-- Where no commit was found, the outcome is a rejection or an ambiguity. -/
theorem record (consistent : Consistent core system) {intent row : Intent} {origin : Origin} {after : Store}
    (absent : system.stage = .absent intent origin)
    (recorded : origin.record system.store intent.receiptId = .ok (after, row)) :
    Consistent core { system with store := after, stage := origin.next } := by
  have held : system.stage.inHand = some (intent :: origin.rest) := by rw [absent]; rfl
  have missing : Missing system.past intent.receiptId := by
    have backed := consistent.stage
    rw [absent] at backed
    exact backed
  have unreserved := next_not_reserved origin
  cases origin with
  | failed error =>
    simp only [Origin.record] at recorded
    split at recorded
    · exact consistent.rejected held (next_inHand _) (next_backed _ _) unreserved missing recorded
    · exact consistent.ambiguous held (next_inHand _) (next_backed _ _) unreserved (by simp [ambiguities]) recorded
  | interrupted rest =>
    exact consistent.ambiguous held (next_inHand _) (next_backed _ _) unreserved (by simp [ambiguities]) recorded

/-- What clients and publishers do is apart from what the worker has in hand. -/
theorem apart (consistent : Consistent core system) {after : Store} (kept : Kept after)
    (develops : Table.Develops Intent.receiptId Born Apart system.store.intents after.intents) :
    Consistent core { system with store := after } where
  kept := kept
  present := consistent.present
  once := consistent.once
  begun run begun := by
    obtain ⟨row, there, named, notQueued⟩ := consistent.begun run begun
    obtain ⟨next, member, same⟩ := develops.stays row there
    exact ⟨next, member, same.trans named, (develops.move consistent.kept.distinct there member same).begun notQueued⟩
  fresh := consistent.fresh
  rows next member := by
    rcases develops.comes next member with ⟨row, there, -, apart⟩ | ⟨-, born⟩
    · exact (consistent.rows row there).apart apart
    · unfold Backed
      rw [born.phase]
      exact born.outcome
  stage := consistent.stage
  hand rows held := by
    obtain ⟨distinct, inHand⟩ := consistent.hand rows held
    refine ⟨distinct, fun row => (inHand row).trans ⟨?_, ?_⟩⟩
    · rintro ⟨there, running⟩
      obtain ⟨next, member, same⟩ := develops.stays row there
      have unchanged := (develops.move consistent.kept.distinct there member same).running_iff (Or.inl running)
      exact ⟨unchanged ▸ member, running⟩
    · rintro ⟨member, running⟩
      rcases develops.comes row member with ⟨before, there, -, apart⟩ | ⟨-, born⟩
      · exact ⟨apart.running_iff (Or.inr running) ▸ there, running⟩
      · cases born.phase.symm.trans running

/-- A reservation puts the oldest queued intent into the worker's hand. -/
theorem reserve (consistent : Consistent core system) (idle : system.stage = .ready) :
    Consistent core (system.reserve world) := by
  unfold System.reserve
  split
  · next after intent answered =>
    have claimed := stored_eq_ok answered
    rcases claimNext_eq_ok claimed with ⟨none, -⟩ | ⟨selected, row, same, member, queued, there, named, active, written⟩
    · cases none
    cases same
    have rowOf (row : Intent) : row ∈ after.intents ↔
        row = { selected with phase := .running, startedAt := some world.now } ∨ row ∈ system.store.intents ∧ row ≠ selected := by
      rw [written]
      exact Table.mem_update_of_mem consistent.kept.distinct member (by simpa using queued)
    have noneRunning : ∀ row, row ∈ system.store.intents → row.phase ≠ .running := by
      obtain ⟨-, inHand⟩ := consistent.hand [] (by rw [idle]; rfl)
      exact fun row stored running => nomatch (inHand row).mpr ⟨stored, running⟩
    have handed : intent = { selected with phase := .running, startedAt := some world.now } := by
      rcases (rowOf intent).mp there with same | ⟨stored, -⟩
      · exact same
      · exact absurd active (noneRunning intent stored)
    refine ⟨(claimNext_accepted claimed).kept consistent.kept, consistent.present, consistent.once, fun run begun => ?_,
      fun other reserved run begun equal => ?_, fun row stored => ?_, trivial, fun rows held => ?_⟩
    · obtain ⟨row, stored, same, begun⟩ := consistent.begun run begun
      exact ⟨row, (rowOf row).mpr (Or.inr ⟨stored, fun equal => begun (equal ▸ queued)⟩), same, begun⟩
    · cases reserved
      obtain ⟨row, stored, same, begun⟩ := consistent.begun run begun
      have both := List.inj_on_of_nodup_map consistent.kept.distinct stored member ((same.trans equal).trans named)
      exact begun (both ▸ queued)
    · rcases (rowOf row).mp stored with rfl | ⟨old, -⟩
      · have blank := consistent.rows selected member
        unfold Backed at blank ⊢
        rw [queued] at blank
        exact blank
      · exact consistent.rows row old
    · cases held
      refine ⟨List.nodup_singleton _, fun row => ?_⟩
      rw [List.mem_singleton, rowOf, handed]
      constructor
      · rintro rfl
        exact ⟨Or.inl rfl, rfl⟩
      · rintro ⟨same | ⟨stored, -⟩, running⟩
        · exact same
        · exact absurd running (noneRunning row stored)
  · exact consistent
  · exact consistent.crash

/-- A mutation is begun for an intent that no mutation was begun for. -/
theorem execute (consistent : Consistent core system) {intent : Intent} (reserved : system.stage = .reserved intent) :
    Consistent core (system.execute core world intent) := by
  have held : system.stage.inHand = some [intent] := by rw [reserved]; rfl
  unfold System.execute
  split
  · exact consistent.goes (Or.inr held.symm) trivial (by simp)
  · next payload _ =>
    refine ⟨consistent.kept, by simp, ?_, fun run begun => ?_, fun other same => absurd same (mutated_not_reserved _ other),
      fun row member => (consistent.rows row member).mono (by simp), mutated_backed _ _, fun rows holds => ?_⟩
    · rw [List.map_append, List.nodup_append]
      refine ⟨consistent.once, List.nodup_singleton _, fun receiptId before other now => ?_⟩
      obtain ⟨run, begun, rfl⟩ := List.mem_map.mp before
      rw [List.mem_singleton.mp now]
      exact consistent.fresh intent reserved run begun
    · rcases List.mem_append.mp begun with before | now
      · exact consistent.begun run before
      · rw [List.mem_singleton.mp now]
        obtain ⟨member, running⟩ := ((consistent.hand _ held).2 intent).mp List.mem_cons_self
        exact ⟨intent, member, rfl, by rw [running]; exact nofun⟩
    · exact consistent.hand rows (held.trans ((mutated_inHand _).symm.trans holds))

section steps

variable (consistent : Consistent core system) {intent : Intent} {origin : Origin} {oid : String} {revision : Int}

include consistent

theorem verifyExecuted (stage : system.stage = .executed intent oid) :
    Consistent core (system.verifyExecuted core world intent oid) := by
  have held : system.stage.inHand = some [intent] := by rw [stage]; rfl
  unfold System.verifyExecuted
  split
  · next revision answered =>
    have verified : Verified core system.past intent oid revision := ⟨_, consistent.present, verify_eq_ok answered⟩
    exact consistent.goes (Or.inr held.symm) verified (by simp)
  · exact consistent.goes (Or.inr held.symm) trivial (by simp)

theorem recordVerified (stage : system.stage = .verified intent oid revision) :
    Consistent core (system.recordVerified world intent oid revision) := by
  have held : system.stage.inHand = some [intent] := by rw [stage]; rfl
  have verified : Verified core system.past intent oid revision := by
    have backed := consistent.stage
    rw [stage] at backed
    exact backed
  unfold System.recordVerified
  split
  · next recorded => exact consistent.completed held rfl trivial (by simp) verified (stored_eq_ok recorded)
  · exact consistent.goes (Or.inr held.symm) trivial (by simp)

theorem search (stage : system.stage = .searching intent origin) : Consistent core (system.search world intent origin) := by
  have held : system.stage.inHand = some (intent :: origin.rest) := by rw [stage]; rfl
  unfold System.search
  split
  · exact consistent.goes (Or.inr held.symm) trivial (by simp)
  · next answered =>
    have missing : Missing system.past intent.receiptId := ⟨_, consistent.present, tried_eq_ok answered⟩
    exact consistent.goes (Or.inr held.symm) missing (by simp)
  · exact consistent.goes (Or.inr held.symm) trivial (by simp)

theorem verifyFound (stage : system.stage = .found intent origin oid) :
    Consistent core (system.verifyFound core world intent origin oid) := by
  have held : system.stage.inHand = some (intent :: origin.rest) := by rw [stage]; rfl
  unfold System.verifyFound
  split
  · next revision answered =>
    have verified : Verified core system.past intent oid revision := ⟨_, consistent.present, verify_eq_ok answered⟩
    exact consistent.goes (Or.inr held.symm) verified (by simp)
  · exact consistent.goes (Or.inr held.symm) trivial (by simp)

theorem recordConfirmed (stage : system.stage = .confirmed intent origin oid revision) :
    Consistent core (system.recordConfirmed world intent origin oid revision) := by
  have held : system.stage.inHand = some (intent :: origin.rest) := by rw [stage]; rfl
  have verified : Verified core system.past intent oid revision := by
    have backed := consistent.stage
    rw [stage] at backed
    exact backed
  unfold System.recordConfirmed
  split
  · next recorded =>
    exact consistent.completed held (next_inHand _) (next_backed _ _) (next_not_reserved _) verified (stored_eq_ok recorded)
  · exact consistent.goes (Or.inr held.symm) trivial (by simp)

theorem giveUp (stage : system.stage = .unknown intent origin) :
    Consistent core (system.closing world origin (recordAmbiguity system.store intent.receiptId "COMMIT_EVIDENCE_UNKNOWN")) := by
  have held : system.stage.inHand = some (intent :: origin.rest) := by rw [stage]; rfl
  exact consistent.closing origin fun after row recorded =>
    consistent.ambiguous held (next_inHand _) (next_backed _ _) (next_not_reserved _) (by simp [ambiguities]) recorded

/-- Every step of the worker keeps the receipts consistent. -/
theorem work (world : World) : Consistent core (system.work core world) := by
  rw [System.work]
  split
  · exact consistent
  · next idle => exact consistent.reserve idle
  · next reserved => exact consistent.execute reserved
  · next stage => exact consistent.verifyExecuted stage
  · next stage => exact consistent.recordVerified stage
  · next stage => exact consistent.search stage
  · next stage => exact consistent.verifyFound stage
  · next stage => exact consistent.recordConfirmed stage
  · next intent origin stage => exact consistent.closing origin fun after row recorded => consistent.record stage recorded
  · next stage => exact consistent.giveUp stage

end steps

theorem initially (projectId : String) (repository : Repository) :
    Consistent core (ReceiptWorker.initially projectId repository) where
  kept := kept_empty projectId
  present := List.mem_singleton_self repository
  once := List.nodup_nil
  begun := by simp [ReceiptWorker.initially]
  fresh := by simp [ReceiptWorker.initially]
  rows := by simp [ReceiptWorker.initially]
  stage := trivial
  hand := by simp [ReceiptWorker.initially, Stage.inHand]

end Consistent

end worker

section clients

variable {store : Store}

theorem enqueue_apart (key task : String) (expectedRevision : Int) (request : Request) (receiptId : String) (now : Nat) :
    Table.Develops Intent.receiptId Born Apart store.intents
      (step store (.enqueue key task expectedRevision request receiptId now)).intents := by
  rw [step]
  split
  · next after answer accepted =>
    obtain ⟨row, stored, -⟩ := map_some_eq_ok accepted
    cases request_inserts stored with
    | same => exact .refl .same _
    | added born freshId freshKey => exact .insert .same freshId born
  · exact .refl .same _

theorem observed_apart (receiptId remoteOid : String) (now : Nat) :
    Table.Develops Intent.receiptId Born Apart store.intents
      (step store (.recordRemoteObservation receiptId remoteOid now)).intents := by
  rw [step]
  split
  · next after answer accepted =>
    obtain ⟨row, recorded, -⟩ := map_some_eq_ok accepted
    rw [recordRemoteObservation_eq_ok recorded]
    exact .update .same (fun _ => rfl) fun row _ _ completed =>
      .published (of_decide_eq_true completed) rfl rfl (Or.inr rfl)
  · exact .refl .same _

theorem publicationFailed_apart (receiptId code : String) :
    Table.Develops Intent.receiptId Born Apart store.intents
      (step store (.recordPublicationFailure receiptId code)).intents := by
  rw [step]
  split
  · next after answer accepted =>
    obtain ⟨row, recorded, -⟩ := map_some_eq_ok accepted
    rw [recordPublicationFailure_eq_ok recorded]
    exact .update .same (fun _ => rfl) fun row _ _ completed =>
      .published (of_decide_eq_true completed) rfl rfl (Or.inl (of_decide_eq_true completed))
  · exact .refl .same _

end clients

theorem act_consistent {core : Core} {system : System} (consistent : Consistent core system) (action : Action) :
    Consistent core (act core system action) := by
  have kept (call : Call) : Kept (step system.store call) := (step_accepted consistent.kept call).kept consistent.kept
  cases action with
  | enqueue key task expectedRevision request receiptId now =>
    exact consistent.apart (kept _) (enqueue_apart key task expectedRevision request receiptId now)
  | observed receiptId remoteOid now => exact consistent.apart (kept _) (observed_apart receiptId remoteOid now)
  | publicationFailed receiptId code => exact consistent.apart (kept _) (publicationFailed_apart receiptId code)
  | changed repository => exact consistent.changed repository
  | start =>
    unfold act
    cases system.stage with
    | down => exact consistent.start
    | _ => exact consistent
  | crash => exact consistent.crash
  | work world => exact consistent.work world

theorem run_consistent (core : Core) (projectId : String) (repository : Repository) (actions : List Action) :
    Consistent core (Run.final (act core) (initially projectId repository) actions) := by
  have keeps (system : System) (action : Action) (consistent : Consistent core system) :
      Consistent core (act core system action) := act_consistent consistent action
  exact Run.invariant_always (act core) keeps actions (Consistent.initially projectId repository)

/-- What the receipts say of the commits of the time, whatever was cut off. -/
structure CrashConsistent (core : Core) (system : System) : Prop where
  once : (system.executed.map fun run => run.1.receiptId).Nodup
  completed : ∀ row ∈ system.store.intents, row.phase = .completedLocal ∨ row.phase = .publishedRemote →
    ∃ repository ∈ system.past, ∃ commit, row.commitOid = some commit.oid ∧ Carried core repository row commit
  rejected : ∀ row ∈ system.store.intents, row.phase = .rejected →
    ∃ repository ∈ system.past, Unmarked repository row.receiptId
  ambiguous : ∀ row ∈ system.store.intents, row.phase = .ambiguous → ∃ code ∈ ambiguities, row.outcome = (none, none, some code)
  settled : system.stage = .ready → (∀ row ∈ system.store.intents, row.phase ≠ .running) ∧
    ∀ run ∈ system.executed, ∃ row ∈ system.store.intents, row.receiptId = run.1.receiptId ∧ row.phase.recorded = true

theorem Consistent.crashConsistent {core : Core} {system : System} (consistent : Consistent core system) :
    CrashConsistent core system where
  once := consistent.once
  completed row member phase := by
    have backed := consistent.rows row member
    unfold Backed at backed
    rcases phase with phase | phase
    all_goals
      rw [phase] at backed
      obtain ⟨oid, revision, outcome, repository, present, verified⟩ := backed
      obtain ⟨commit, same, carried⟩ := carried_of_verified verified
      exact ⟨repository, present, commit, (congrArg Prod.fst outcome).trans (congrArg some same.symm), carried⟩
  rejected row member phase := by
    have backed := consistent.rows row member
    unfold Backed at backed
    rw [phase] at backed
    obtain ⟨-, repository, present, none⟩ := backed
    exact ⟨repository, present, unmarked_of_find none⟩
  ambiguous row member phase := by
    have backed := consistent.rows row member
    unfold Backed at backed
    rw [phase] at backed
    exact backed
  settled idle := by
    obtain ⟨-, inHand⟩ := consistent.hand [] (by rw [idle]; rfl)
    have closed : ∀ row ∈ system.store.intents, row.phase ≠ .running :=
      fun row member running => absurd ((inHand row).mpr ⟨member, running⟩) List.not_mem_nil
    refine ⟨closed, fun run begun => ?_⟩
    obtain ⟨row, member, named, begun⟩ := consistent.begun run begun
    refine ⟨row, member, named, ?_⟩
    have closed := closed row member
    cases phase : row.phase with
    | queuedLocal => exact absurd phase begun
    | running => exact absurd phase closed
    | completedLocal | publishedRemote | rejected | ambiguous => rfl

def samplePayload : Dict :=
  [("expected_revision", .int 1), ("lease_minutes", .int 20), ("operation", .str "heartbeat"), ("owner", .str "worker-a"),
    ("project_id", .str "project"), ("task", .str "AR-0120")]

def sampleCore : Core := ⟨fun _ => some (.obj samplePayload), fun _ => "", fun _ => .ok [], false, false⟩

def sampleReceipt : String := "0123456789abcdef0123456789abcdef"

def twiceMarked : Commit :=
  { oid := "aaaaaaaaaaaaaaaaaaaaaaaaaaaaaaaaaaaaaaaa"
    message := "chore(state): heartbeat AR-0120\n\n" ++ markerOf sampleReceipt ++ "\n" ++ markerOf sampleReceipt ++ "\n"
    parents := []
    files := []
    committer := "worker <worker@example.org>" }

def markedTwice : Repository := ⟨[twiceMarked], [twiceMarked.oid]⟩

/-- A worker that takes the one intent and whose mutation is refused as stale. -/
def refusedRun : List Action :=
  let answers : World := ⟨2, none, markedTwice, .error "AR-0120: stale revision"⟩
  [.enqueue "worker-a:1" "AR-0120" 1 (.heartbeat "worker-a" 20) sampleReceipt 1, .start, .work answers, .work answers,
    .work answers, .work answers]

end Coordinator.ReceiptWorker
