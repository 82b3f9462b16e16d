import Coordinator.Kit.Journal
import Coordinator.Receipts
import Coordinator.Records

/-! The two stores of session records. The Git authority keeps one file for each task and writes it
anew with every record; the SQLite authority keeps the records of all tasks as rows of one table. -/

namespace Coordinator.SessionBackends
open Kit Records

/-- What a mutation hands over to be recorded: its task, whose row an authority can hold. -/
structure Snapshot where
  task : Meta
  trigger : String
  recordedAt : String
  stored : Receipts.fitsColumn (Meta.revision task) = true

namespace Snapshot

variable (s : Snapshot)

def name : String := (s.task.get "id").toText

def revision : Int := Meta.revision s.task

def record : Json := sessionSnapshot s.task s.trigger s.recordedAt

def build : Outcome Json := buildSessionRecord s.task s.trigger s.recordedAt

end Snapshot

/-! The Git authority. The lines of a file are held as the values that they spell. -/

abbrev Histories := String → List Json

namespace Histories

variable (files : Histories)

/-- Append a record to the history of its task, and write the file anew. -/
def append (s : Snapshot) : Outcome Histories := do
  let record ← s.build
  let name := (record.get "task").text
  let history ← appendSessionRecord (files name) record
  pure (Function.update files name history)

def load (name : String) : Outcome (List Json) := loadSessionRecords name (files name)

end Histories

/-! The SQLite authority. -/

/-- A row of the session records. -/
structure Row where
  sequence : Nat
  taskId : String
  taskRevision : Int
  record : Json

/-- The table, with the last sequence number that was ever given out. -/
structure SessionTable where
  rows : List Row
  lastSequence : Nat

namespace SessionTable

variable (table : SessionTable)

def insert (taskId : String) (record : Json) : Outcome SessionTable := do
  raiseIf (!Receipts.fitsColumn (revisionOf record)) (.error "Python int too large to convert to SQLite INTEGER")
  raiseIf (table.rows.any (fun row => row.taskId == taskId && row.taskRevision == revisionOf record))
    (.error "UNIQUE constraint failed: session_records.task_id, session_records.task_revision")
  pure { rows := table.rows ++ [⟨table.lastSequence + 1, taskId, revisionOf record, record⟩]
         lastSequence := table.lastSequence + 1 }

/-- Delete the rows of a task that are not among its newest. -/
def prune (taskId : String) : SessionTable :=
  { table with rows := Journal.pruneRows Row.sequence Row.taskId maxSessionRecords table.rows taskId }

def append (s : Snapshot) : Outcome SessionTable := do
  let record ← s.build
  let table ← table.insert s.name record
  pure (table.prune s.name)

def readRow (row : Row) : Outcome Json := do
  raiseIf (!allowed (validateSessionRecord row.record)) (.error "SQLITE_CORRUPT: invalid session record")
  raiseIf (row.record.get "task" != .str row.taskId || row.record.get "task_revision" != .int row.taskRevision)
    (.error "SQLITE_CORRUPT: session record identity mismatch")
  pure row.record

def load (taskId : String) : Outcome (List Json) :=
  (Journal.readRows Row.sequence Row.taskId table.rows taskId).mapM readRow

end SessionTable

/-! Both of them under the same appends. -/

/-- The stores of both authorities, and all that the files have ever taken in. -/
structure Stores where
  files : Histories
  table : SessionTable
  appended : List Snapshot

/-- What a call leaves of the store that it meets. -/
def after {σ : Type} (before : σ) : Outcome σ → σ
  | .ok next => next
  | .error _ => before

/-- One append, which each authority takes in or refuses for itself. -/
def step (stores : Stores) (s : Snapshot) : Stores where
  files := after stores.files (stores.files.append s)
  table := after stores.table (stores.table.append s)
  appended := if allowed (stores.files.append s) then stores.appended ++ [s] else stores.appended

def empty : Stores where
  files _ := []
  table := ⟨[], 0⟩
  appended := []

/-- The newest appends of a task. -/
def Stores.retained (stores : Stores) (name : String) : List Snapshot :=
  Journal.retain maxSessionRecords (Journal.rowsOf Snapshot.name stores.appended name)

section records

variable {s : Snapshot} {record : Json}

theorem build_eq_ok : s.build = .ok record ↔
    (triggers.contains s.trigger = true ∧ validateSessionRecord s.record = .ok ()) ∧ s.record = record := by
  simp only [Snapshot.build, buildSessionRecord, bind_eq_ok, exists_unit, raiseIf_eq_ok, pure_eq_ok, Bool.not_eq_false',
    Snapshot.record, and_assoc]

theorem record_task (s : Snapshot) : s.record.get "task" = .str s.name := rfl

theorem record_revision (s : Snapshot) : s.record.get "task_revision" = .int s.revision := rfl

theorem revisionOf_record (s : Snapshot) : revisionOf s.record = s.revision := rfl

end records

/-- Both stores hold the newest appends of each task. -/
structure Represents (stores : Stores) : Prop where
  valid : ∀ s ∈ stores.appended, validateSessionRecord s.record = .ok ()
  fresh : ∀ name, ((stores.retained name).map Snapshot.revision).Nodup
  files : ∀ name, stores.files name = (stores.retained name).map Snapshot.record
  ordered : Journal.Ordered Row.sequence stores.table.rows
  bounded : ∀ row ∈ stores.table.rows, row.sequence ≤ stores.table.lastSequence
  rows : ∀ name, (Journal.rowsOf Row.taskId stores.table.rows name).map (fun row => (row.taskRevision, row.record)) =
    (stores.retained name).map (fun s => (s.revision, s.record))

theorem represents_empty : Represents empty where
  valid := by simp [empty]
  fresh := by simp [empty, Stores.retained, Journal.rowsOf, Journal.retain]
  files := by simp [empty, Stores.retained, Journal.rowsOf, Journal.retain]
  ordered := List.Pairwise.nil
  bounded := by simp [empty]
  rows := by simp [empty, Stores.retained, Journal.rowsOf, Journal.retain]

section represented

variable {stores : Stores} {name : String} {s : Snapshot}

theorem retained_length : (stores.retained name).length ≤ maxSessionRecords := Journal.retain_length

theorem mem_retained (member : s ∈ stores.retained name) : s ∈ stores.appended ∧ s.name = name := by
  have listed := List.mem_filter.mp (List.mem_of_mem_drop member)
  exact ⟨listed.1, of_decide_eq_true listed.2⟩

/-- What the files hold of a task is a history that its reader accepts. -/
theorem Represents.history (represents : Represents stores) (name : String) :
    historyValid name (stores.files name) = true := by
  have bound : ((stores.retained name).map Snapshot.record).length ≤ maxSessionRecords := by
    rw [List.length_map]
    exact retained_length
  have sound : ((stores.retained name).map Snapshot.record).all
      (fun record => allowed (validateSessionRecord record) && record.get "task" == .str name) = true := by
    rw [List.all_map, List.all_eq_true]
    intro s member
    obtain ⟨listed, named⟩ := mem_retained member
    simp only [Function.comp_apply, represents.valid s listed, allowed_ok, record_task, named, Json.beq_str, Bool.true_and]
  have apart : RetryCircuit.distinct (((stores.retained name).map Snapshot.record).map (·.get "task_revision")) = true := by
    have column : ((stores.retained name).map Snapshot.record).map (·.get "task_revision") =
        ((stores.retained name).map Snapshot.revision).map Json.int := by
      rw [List.map_map, List.map_map]
      rfl
    rw [column, RetryCircuit.distinct_map (fun a b => Json.beq_int_int a b)]
    exact represents.fresh name
  rw [historyValid, represents.files, decide_eq_true bound, sound, apart]
  rfl

/-- An append is refused for its record, or for a revision that the task still has a record of. -/
structure Admits (stores : Stores) (s : Snapshot) : Prop where
  trigger : triggers.contains s.trigger = true
  valid : validateSessionRecord s.record = .ok ()
  fresh : s.revision ∉ (stores.retained s.name).map Snapshot.revision

theorem Represents.files_append (represents : Represents stores) {files : Histories} :
    stores.files.append s = .ok files ↔ Admits stores s ∧
      files = Function.update stores.files s.name
        ((Journal.retain maxSessionRecords (stores.retained s.name ++ [s])).map Snapshot.record) := by
  have repeated : (stores.files s.name).any (fun item => item.get "task_revision" == s.record.get "task_revision") = false ↔
      s.revision ∉ (stores.retained s.name).map Snapshot.revision := by
    rw [represents.files, List.any_map, ← Bool.not_eq_true, List.any_eq_true]
    simp only [Function.comp_apply, record_revision, Json.beq_int_int, List.mem_map]
  have pushed : AutonomyLimits.lastOf maxSessionRecords (stores.files s.name ++ [s.record]) =
      (Journal.retain maxSessionRecords (stores.retained s.name ++ [s])).map Snapshot.record := by
    rw [represents.files, AutonomyLimits.lastOf, Journal.retain, List.map_drop, List.map_append, List.map_singleton,
      List.length_append, List.length_append, List.length_map]
    rfl
  have history := represents.history s.name
  simp only [Histories.append, appendSessionRecord, loadSessionRecords, insertSessionRecord, bind_eq_ok, exists_unit,
    raiseIf_eq_ok, pure_eq_ok, build_eq_ok]
  constructor
  · rintro ⟨record, ⟨⟨trigger, valid⟩, rfl⟩, history_, ⟨-, records, ⟨-, rfl⟩, new, rfl⟩, rfl⟩
    exact ⟨⟨trigger, valid, repeated.mp new⟩, by rw [← pushed]; rfl⟩
  · rintro ⟨⟨trigger, valid, new⟩, rfl⟩
    refine ⟨s.record, ⟨⟨trigger, valid⟩, rfl⟩, _, ⟨valid, _, ⟨?_, rfl⟩, repeated.mpr new, rfl⟩, by rw [← pushed]; rfl⟩
    rw [Bool.not_eq_false']
    exact history

theorem Represents.revisions (represents : Represents stores) (name : String) :
    (Journal.rowsOf Row.taskId stores.table.rows name).map Row.taskRevision =
      (stores.retained name).map Snapshot.revision := by
  have columns := congrArg (List.map Prod.fst) (represents.rows name)
  rw [List.map_map, List.map_map] at columns
  exact columns

/-- The row that an append adds to the table. -/
def newRow (table : SessionTable) (s : Snapshot) : Row := ⟨table.lastSequence + 1, s.name, s.revision, s.record⟩

def grown (table : SessionTable) (s : Snapshot) : SessionTable :=
  SessionTable.prune ⟨table.rows ++ [newRow table s], table.lastSequence + 1⟩ s.name

theorem Represents.table_append (represents : Represents stores) {table : SessionTable} :
    stores.table.append s = .ok table ↔ Admits stores s ∧ table = grown stores.table s := by
  have fits : Receipts.fitsColumn s.revision = true := s.stored
  have repeated : stores.table.rows.any (fun row => row.taskId == s.name && row.taskRevision == s.revision) = false ↔
      s.revision ∉ (stores.retained s.name).map Snapshot.revision := by
    rw [← represents.revisions, ← Bool.not_eq_true, List.any_eq_true]
    simp only [Bool.and_eq_true, beq_iff_eq, List.mem_map, Journal.rowsOf, List.mem_filter, decide_eq_true_eq, and_assoc]
  simp only [SessionTable.append, SessionTable.insert, bind_eq_ok, exists_unit, raiseIf_eq_ok, pure_eq_ok, build_eq_ok]
  constructor
  · rintro ⟨record, ⟨⟨trigger, valid⟩, rfl⟩, inserted, ⟨-, new, rfl⟩, rfl⟩
    exact ⟨⟨trigger, valid, repeated.mp new⟩, rfl⟩
  · rintro ⟨⟨trigger, valid, new⟩, rfl⟩
    refine ⟨s.record, ⟨⟨trigger, valid⟩, rfl⟩, _, ⟨?_, repeated.mpr new, rfl⟩, rfl⟩
    rw [Bool.not_eq_false', revisionOf_record]
    exact fits

end represented

section growth

variable {stores : Stores} {s : Snapshot}

/-- An append that is taken in comes last among those of its task and leaves the other tasks alone. -/
theorem retained_append (appended : List Snapshot) (name : String) :
    Journal.retain maxSessionRecords (Journal.rowsOf Snapshot.name (appended ++ [s]) name) =
      if name = s.name then
        Journal.retain maxSessionRecords
          (Journal.retain maxSessionRecords (Journal.rowsOf Snapshot.name appended name) ++ [s])
      else Journal.retain maxSessionRecords (Journal.rowsOf Snapshot.name appended name) := by
  rw [Journal.retain_append, Journal.rowsOf, List.filter_append]
  by_cases own : name = s.name
  · rw [if_pos own, List.filter_singleton, decide_eq_true own.symm]
    rfl
  · rw [if_neg own, List.filter_singleton, decide_eq_false (Ne.symm own)]
    simp [Journal.rowsOf]

theorem Represents.inserted (represents : Represents stores) (s : Snapshot) :
    Journal.Ordered Row.sequence (stores.table.rows ++ [newRow stores.table s]) := by
  refine List.pairwise_append.mpr ⟨represents.ordered, List.pairwise_singleton _ _, ?_⟩
  intro row member last same
  rw [List.mem_singleton.mp same]
  exact Nat.lt_succ_of_le (represents.bounded row member)

theorem rowsOf_inserted (table : SessionTable) (name : String) :
    Journal.rowsOf Row.taskId (table.rows ++ [newRow table s]) name =
      if name = s.name then Journal.rowsOf Row.taskId table.rows name ++ [newRow table s]
      else Journal.rowsOf Row.taskId table.rows name := by
  rw [Journal.rowsOf, List.filter_append]
  by_cases own : name = s.name
  · have selected : decide ((newRow table s).taskId = name) = true := decide_eq_true own.symm
    rw [if_pos own, List.filter_singleton, selected]
    rfl
  · have passed : decide ((newRow table s).taskId = name) = false := decide_eq_false (Ne.symm own)
    rw [if_neg own, List.filter_singleton, passed]
    simp [Journal.rowsOf]

theorem grown_rows (represents : Represents stores) (name : String) :
    Journal.rowsOf Row.taskId (grown stores.table s).rows name =
      if name = s.name then
        Journal.retain maxSessionRecords (Journal.rowsOf Row.taskId stores.table.rows name ++ [newRow stores.table s])
      else Journal.rowsOf Row.taskId stores.table.rows name := by
  by_cases own : name = s.name
  · subst own
    have pruned : Journal.rowsOf Row.taskId (grown stores.table s).rows s.name =
        Journal.retain maxSessionRecords (Journal.rowsOf Row.taskId (stores.table.rows ++ [newRow stores.table s]) s.name) :=
      Journal.rowsOf_pruneRows (represents.inserted s) s.name
    rw [pruned, rowsOf_inserted, if_pos rfl, if_pos rfl]
  · have pruned : Journal.rowsOf Row.taskId (grown stores.table s).rows name =
        Journal.rowsOf Row.taskId (stores.table.rows ++ [newRow stores.table s]) name := Journal.rowsOf_pruneRows_of_ne own
    rw [pruned, rowsOf_inserted, if_neg own, if_neg own]

/-- What an append that both authorities take in makes of their stores. -/
def Stores.taken (stores : Stores) (s : Snapshot) : Stores where
  files := Function.update stores.files s.name
    ((Journal.retain maxSessionRecords (stores.retained s.name ++ [s])).map Snapshot.record)
  table := grown stores.table s
  appended := stores.appended ++ [s]

theorem retained_taken (stores : Stores) (s : Snapshot) (name : String) :
    (stores.taken s).retained name =
      if name = s.name then Journal.retain maxSessionRecords (stores.retained name ++ [s]) else stores.retained name :=
  retained_append stores.appended name

/-- Retention commutes with reading a column. -/
theorem retain_map {α β : Type} (column : α → β) (values : List α) :
    (Journal.retain maxSessionRecords values).map column = Journal.retain maxSessionRecords (values.map column) := by
  rw [Journal.retain, Journal.retain, List.map_drop, List.length_map]

theorem represents_taken (represents : Represents stores) (admits : Admits stores s) : Represents (stores.taken s) where
  valid item member := by
    obtain old | new := List.mem_append.mp member
    · exact represents.valid item old
    · rw [List.mem_singleton.mp new]
      exact admits.valid
  fresh name := by
    rw [retained_taken]
    by_cases own : name = s.name
    · subst own
      rw [if_pos rfl, retain_map]
      refine List.Nodup.sublist (List.drop_sublist _ _) ?_
      rw [List.map_append, List.map_singleton]
      exact List.nodup_append.mpr ⟨represents.fresh s.name, List.nodup_singleton _,
        fun a member b last same => admits.fresh (List.mem_singleton.mp last ▸ same ▸ member)⟩
    · rw [if_neg own]
      exact represents.fresh name
  files name := by
    rw [retained_taken]
    by_cases own : name = s.name
    · subst own
      rw [if_pos rfl]
      exact Function.update_self _ _ _
    · rw [if_neg own, ← represents.files name]
      exact Function.update_of_ne own _ _
  ordered := (represents.inserted s).sublist Journal.pruneRows_sublist
  bounded row member := by
    obtain old | new := List.mem_append.mp (Journal.pruneRows_sublist.subset member)
    · exact Nat.le_succ_of_le (represents.bounded row old)
    · rw [List.mem_singleton.mp new]
      exact Nat.le_refl _
  rows name := by
    rw [retained_taken]
    change (Journal.rowsOf Row.taskId (grown stores.table s).rows name).map _ = _
    rw [grown_rows represents]
    by_cases own : name = s.name
    · rw [if_pos own, if_pos own, retain_map, retain_map, List.map_append, List.map_append, represents.rows name]
      rfl
    · rw [if_neg own, if_neg own]
      exact represents.rows name

/-- Both authorities take an append in, or both refuse it and stay as they are. -/
theorem step_cases (represents : Represents stores) (s : Snapshot) :
    Admits stores s ∧ step stores s = stores.taken s ∨ ¬Admits stores s ∧ step stores s = stores := by
  by_cases admits : Admits stores s
  · have files := represents.files_append.mpr ⟨admits, rfl⟩
    have table := represents.table_append.mpr ⟨admits, rfl⟩
    refine .inl ⟨admits, ?_⟩
    rw [step, files, table]
    rfl
  · have files : ∃ fault, stores.files.append s = .error fault := by
      cases appended : stores.files.append s with
      | error fault => exact ⟨fault, rfl⟩
      | ok files => exact absurd (represents.files_append.mp appended).1 admits
    have table : ∃ fault, stores.table.append s = .error fault := by
      cases appended : stores.table.append s with
      | error fault => exact ⟨fault, rfl⟩
      | ok table => exact absurd (represents.table_append.mp appended).1 admits
    obtain ⟨first, files⟩ := files
    obtain ⟨second, table⟩ := table
    refine .inr ⟨admits, ?_⟩
    rw [step, files, table]
    rfl

theorem represents_step (s : Snapshot) (represents : Represents stores) : Represents (step stores s) := by
  obtain ⟨admits, taken⟩ | ⟨-, stays⟩ := step_cases represents s
  · rw [taken]
    exact represents_taken represents admits
  · rw [stays]
    exact represents

end growth

section loading

variable {stores : Stores} (represents : Represents stores) (name : String)
include represents

theorem Represents.load_files : stores.files.load name = .ok ((stores.retained name).map Snapshot.record) := by
  have history := represents.history name
  rw [Histories.load, loadSessionRecords, history, Bool.not_true, raiseIf_false, represents.files name]
  rfl

/-- A row of the table is read back as the record of the append that it holds. -/
theorem Represents.readRow {row : Row} (member : row ∈ Journal.rowsOf Row.taskId stores.table.rows name) :
    SessionTable.readRow row = .ok row.record := by
  have listed : (row.taskRevision, row.record) ∈ (stores.retained name).map (fun s => (s.revision, s.record)) := by
    rw [← represents.rows name]
    exact List.mem_map_of_mem member
  obtain ⟨s, retained, same⟩ := List.mem_map.mp listed
  obtain ⟨revision, record⟩ := Prod.mk.inj same
  obtain ⟨appended, named⟩ := mem_retained retained
  have owner : row.taskId = name := of_decide_eq_true (List.mem_filter.mp member).2
  have valid := represents.valid s appended
  have identity : (s.record.get "task" != .str row.taskId || s.record.get "task_revision" != .int row.taskRevision) = false := by
    rw [Bool.or_eq_false_iff, bne, bne, Bool.not_eq_false', Bool.not_eq_false', record_task, record_revision, named, owner,
      ← revision]
    exact ⟨(Json.beq_str _ _).mpr rfl, (Json.beq_int_int _ _).mpr rfl⟩
  rw [SessionTable.readRow, ← record, valid, identity]
  rfl

theorem Represents.load_table : stores.table.load name = .ok ((stores.retained name).map Snapshot.record) := by
  have records := congrArg (List.map Prod.snd) (represents.rows name)
  rw [List.map_map, List.map_map] at records
  rw [SessionTable.load, Journal.readRows_eq represents.ordered, mapM_ok fun row => represents.readRow name]
  exact congrArg Except.ok records

end loading

/-- After any appends, both authorities load the newest appends of each task in their order, and both
take the next append in or both refuse it. -/
theorem sessions_agree (appends : List Snapshot) :
    (∀ name,
      (Run.final step empty appends).files.load name =
        .ok (((Run.final step empty appends).retained name).map Snapshot.record) ∧
      (Run.final step empty appends).table.load name =
        .ok (((Run.final step empty appends).retained name).map Snapshot.record)) ∧
    ∀ s, (allowed ((Run.final step empty appends).files.append s) = true ↔ Admits (Run.final step empty appends) s) ∧
      (allowed ((Run.final step empty appends).table.append s) = true ↔ Admits (Run.final step empty appends) s) := by
  have represents : Represents (Run.final step empty appends) :=
    Run.invariant_always step (fun _ s => represents_step s) appends represents_empty
  refine ⟨fun name => ⟨represents.load_files name, represents.load_table name⟩, fun s => ⟨?_, ?_⟩⟩
  · rw [allowed_iff]
    exact ⟨fun ⟨_, appended⟩ => (represents.files_append.mp appended).1,
      fun admits => ⟨_, represents.files_append.mpr ⟨admits, rfl⟩⟩⟩
  · rw [allowed_iff]
    exact ⟨fun ⟨_, appended⟩ => (represents.table_append.mp appended).1,
      fun admits => ⟨_, represents.table_append.mpr ⟨admits, rfl⟩⟩⟩

end Coordinator.SessionBackends
