import Coordinator.LedgerValidity
import Coordinator.Commit

/-! The audited repair of an evidence ledger: what an accepted repair leaves, and when the ledger that it leaves is valid. -/

namespace Coordinator.PredicateLedger
open Kit Dict TaskGraph TaskSpec TaskValidation Authority

/-- What an accepted repair has checked and what it writes. -/
structure Repairing (files : Files) (task : Meta) (request : RepairRequest) (after : Meta) : Prop where
  linked : task.has "spec_ref" = true
  specValid : taskSpecErrors files (task.pop "evidence_ledger") true = []
  evidenceRef : isEvidenceRef request.evidenceRef = true
  evidenceDigest : Text.isDigest request.evidenceDigest = true
  evidence : relativeDigest files request.evidenceRef = some request.evidenceDigest
  shape : (task.get "evidence_ledger").hasExactly ledgerFields = true
  declared : ∃ spec, readSpec files task = .ok spec ∧ (predicatesOf spec).any (· == .str request.predicate) = true
  candidateDigest : Text.isDigest request.candidateDigest = true
  candidate : relativeDigest files request.candidateRef = some request.candidateDigest
  vocabulary : request.evidenceClass ∈ evidenceClasses files
  objects : ∀ row ∈ rowsOf task, row.isObj = true
  written : after = task.set "evidence_ledger" (.obj ((((task.get "evidence_ledger").fields.set "candidate_ref"
    (.str request.candidateRef)).set "candidate_digest" (.str request.candidateDigest)).set "steps"
      (.arr ((rowsOf task).map (fun row => if row.get "predicate_id" == .str request.predicate then staled row else row) ++
        [repairStep task request]))))

section repairs

variable {files : Files} {task after : Meta} {request : RepairRequest} {note at_ : String}

theorem repair_eq_ok (repaired : repair files task request = .ok (after, note)) : Repairing files task request after := by
  simp only [repair, repairedRows, bind_eq_ok, exists_unit, raiseIf_eq_ok, pure_eq_ok, Prod.mk.injEq, Bool.or_eq_false_iff,
    Bool.not_eq_false', List.isEmpty_iff] at repaired
  obtain ⟨-, -, -, ⟨evidenceRef, -⟩, ⟨evidenceDigest, evidence⟩, ⟨shape, -⟩, specValid, linked, spec, read, declared,
    ⟨candidateDigest, candidate⟩, -, vocabulary, rows, ⟨objects, rfl⟩, rfl, -⟩ := repaired
  refine ⟨linked, specValid, evidenceRef, evidenceDigest, by simpa using evidence, shape, ⟨spec, read, declared⟩, candidateDigest,
    by simpa using candidate, by simpa using vocabulary, fun row member => ?_, rfl⟩
  simpa using List.any_eq_false.mp objects row member

/-- Rows of other predicates than the one at hand. -/
def othersOf (predicate : String) (rows : List Json) : List Json := rows.filter (fun row => !(row.get "predicate_id" == .str predicate))

/-- The candidate of a repair goes with the rows of the ledger: none of those that are or become historical is of that
candidate, and those of other predicates that pass are already of it. -/
structure Compatible (files : Files) (task : Meta) (request : RepairRequest) : Prop where
  bounded : isEvidenceRef request.candidateRef = true
  apart : ∀ row ∈ rowsOf task, isPass row = false ∨ row.get "predicate_id" = .str request.predicate →
    rowCandidate row ≠ (.str request.candidateRef, .str request.candidateDigest)
  current : ∀ row ∈ rowsOf task, isPass row = true → row.get "predicate_id" ≠ .str request.predicate →
    rowCandidate row = (.str request.candidateRef, .str request.candidateDigest) ∧
      artifactDigest files (row.get "evidence_ref") = row.get "evidence_digest"
  unique : (passed (othersOf request.predicate (rowsOf task))).Nodup

/-- The artifact digest of a bounded reference is that of the file. -/
theorem artifactDigest_of_bounded {reference digest : String} (bounded : isEvidenceRef reference = true)
    (found : relativeDigest files reference = some digest) : artifactDigest files (.str reference) = .str digest := by
  unfold relativeDigest at found
  split at found
  · cases found
  · next safe =>
    simp only [Bool.or_eq_true, not_or, Bool.not_eq_true] at safe
    have inside : ".." ∉ Text.pathParts reference := by simpa using safe.2
    simp [artifactDigest, Json.isStr, Json.text, bounded, safe.1, inside, found]

theorem loadSpec_of_valid {includeLedger : Bool} (linked : task.has "spec_ref" = true)
    (clean : taskSpecErrors files task includeLedger = []) :
    ∃ spec, spec.isObj = true ∧ ∀ taskId, loadSpec files taskId (task.get "spec_ref").toText = .ok spec := by
  obtain ⟨spec, errors, loaded⟩ := spec_of_valid linked clean
  refine ⟨spec, ?_, loaded⟩
  unfold specErrors at errors
  split at errors
  · cases errors
  · next object => simpa using object

/-- A row that turns historical has nothing else changed. -/
theorem staled_get {row : Json} {field : String} (other : field ≠ "status") : (staled row).get field = row.get field := by
  unfold staled
  split
  · next object =>
    rw [Bool.and_eq_true] at object
    obtain ⟨fields, rfl⟩ := Json.isObj_iff.mp object.1
    simp [Json.fields, other]
  · rfl

theorem staled_formed {later : Meta} {predicates : List Json} {row : Json} (grown : Meta.revision task ≤ Meta.revision later)
    (formed : RowFormed files task predicates row) : RowFormed files later predicates (staled row) := by
  have shape : (staled row).hasExactly stepFields = true := by
    unfold staled
    split
    · next object =>
      rw [Bool.and_eq_true] at object
      obtain ⟨fields, rfl⟩ := Json.isObj_iff.mp object.1
      exact Json.hasExactly_set formed.shape (by decide) _
    · exact formed.shape
  have status : RetryCircuit.oneOf ((staled row).get "status") ["pass", "stale"] = true := by
    unfold staled
    split
    · next object =>
      rw [Bool.and_eq_true] at object
      obtain ⟨fields, rfl⟩ := Json.isObj_iff.mp object.1
      simp only [Json.fields, Json.get_obj, get_set, ↓reduceIte]
      rfl
    · exact formed.status
  have revision : ((staled row).get "recorded_task_revision").exactInt?.any
      (fun revision => decide (1 ≤ revision) && decide (revision ≤ Meta.revision later + 1)) = true := by
    rw [staled_get (by decide)]
    have before := formed.revision
    simp only [Option.any_eq_true, Bool.and_eq_true, decide_eq_true_eq] at before ⊢
    obtain ⟨number, known, positive, bounded⟩ := before
    exact ⟨number, known, positive, by omega⟩
  constructor
  · exact shape
  · rw [staled_get (by decide)]
    exact formed.known
  · exact status
  · rw [staled_get (by decide)]
    exact formed.candidateRef
  · rw [staled_get (by decide)]
    exact formed.candidateDigest
  · rw [staled_get (by decide)]
    exact formed.evidenceClass
  · rw [staled_get (by decide)]
    exact formed.evidenceRef
  · rw [staled_get (by decide)]
    exact formed.evidenceDigest
  · exact revision

theorem RowFormed.later {later : Meta} {predicates : List Json} {row : Json} (grown : Meta.revision task ≤ Meta.revision later)
    (formed : RowFormed files task predicates row) : RowFormed files later predicates row := by
  refine ⟨formed.shape, formed.known, formed.status, formed.candidateRef, formed.candidateDigest, formed.evidenceClass,
    formed.evidenceRef, formed.evidenceDigest, ?_⟩
  have before := formed.revision
  simp only [Option.any_eq_true, Bool.and_eq_true, decide_eq_true_eq] at before ⊢
  obtain ⟨number, known, positive, bounded⟩ := before
  exact ⟨number, known, positive, by omega⟩

/-- Rows of the repaired predicate no longer pass, the others pass as before. -/
theorem passed_superseded {predicate : String} {rows : List Json} (objects : ∀ row ∈ rows, row.isObj = true) :
    passed (superseded predicate rows) = passed (othersOf predicate rows) := by
  induction rows with
  | nil => rfl
  | cons row rest ih =>
    obtain ⟨object, objects⟩ := List.forall_mem_cons.mp objects
    have later := ih objects
    cases named : row.get "predicate_id" == .str predicate with
    | true =>
      have others : othersOf predicate (row :: rest) = othersOf predicate rest := by simp [othersOf, named]
      rw [others, ← later]
      simp [passed, superseded, named, staled_not_pass object]
    | false =>
      have others : othersOf predicate (row :: rest) = row :: othersOf predicate rest := by simp [othersOf, named]
      have front : superseded predicate (row :: rest) = row :: superseded predicate rest := by simp [superseded, named]
      rw [others, front]
      unfold passed at later ⊢
      cases passing : isPass row <;> simp [passing, later]

/-- No row of another predicate names the repaired one. -/
theorem predicate_of_others {predicate : String} {rows : List Json}
    (named : ∀ row ∈ rows, (row.get "predicate_id").isStr = true) : predicate ∉ passed (othersOf predicate rows) := by
  intro listed
  obtain ⟨row, member, same⟩ := List.mem_map.mp listed
  obtain ⟨kept, passing⟩ := List.mem_filter.mp member
  obtain ⟨present, other⟩ := List.mem_filter.mp kept
  obtain ⟨word, text⟩ := Json.isStr_iff.mp (named row present)
  rw [text] at same other
  simp only [Json.text] at same
  rw [same, Bool.not_eq_true', ← Bool.not_eq_true, Json.beq_str] at other
  exact other rfl

/-- The rows and the candidate of the ledger that a repair writes. -/
theorem Repairing.rows (repairing : Repairing files task request after) :
    rowsOf after = superseded request.predicate (rowsOf task) ++ [repairStep task request] := by
  rw [repairing.written, rowsOf]
  simp only [get_set, ↓reduceIte, Json.get_obj]
  rfl

theorem Repairing.candidateOf_eq (repairing : Repairing files task request after) :
    candidateOf after = (.str request.candidateRef, .str request.candidateDigest) := by
  rw [repairing.written, candidateOf]
  simp

theorem Repairing.within (repairing : Repairing files task request after) : Within ["evidence_ledger"] task after := by
  rw [repairing.written]
  exact (within_refl _ task).set (by simp) _

/-- A row that the repair keeps goes with its candidate under the conditions of a compatible repair. -/
theorem superseded_bound {row : Json} {candidate : Json × Json} {predicate : String} (object : row.isObj = true)
    (found : artifactDigest files candidate.1 = candidate.2) :
    RowBound files candidate (if row.get "predicate_id" == .str predicate then staled row else row) ↔
      (isPass row = false ∨ row.get "predicate_id" = .str predicate → rowCandidate row ≠ candidate) ∧
      (isPass row = true → row.get "predicate_id" ≠ .str predicate → rowCandidate row = candidate ∧
        artifactDigest files (row.get "evidence_ref") = row.get "evidence_digest") := by
  have matched (same : rowCandidate row = candidate) :
      artifactDigest files (row.get "candidate_ref") = row.get "candidate_digest" := by
    subst same
    exact found
  by_cases named : row.get "predicate_id" = .str predicate
  · rw [if_pos ((Json.beq_str _ _).mpr named)]
    constructor
    · intro bound
      refine ⟨fun _ same => bound.apart (staled_not_pass object) ?_, fun _ other => absurd named other⟩
      rw [staled_candidate, same]
    · rintro ⟨apart, -⟩
      have historic : isPass (staled row) = true → False := fun passing =>
        Bool.false_ne_true ((staled_not_pass object).symm.trans passing)
      refine ⟨fun passing => (historic passing).elim, fun passing => (historic passing).elim,
        fun passing => (historic passing).elim, fun _ => ?_⟩
      rw [staled_candidate]
      exact apart (.inr named)
  · rw [if_neg (mt (Json.beq_str _ _).mp named)]
    constructor
    · intro bound
      exact ⟨fun historic => bound.apart (historic.resolve_right named),
        fun passing _ => ⟨bound.current passing, bound.evidence passing⟩⟩
    · rintro ⟨apart, current⟩
      exact ⟨fun passing => (current passing named).1, fun passing => matched (current passing named).1,
        fun passing => (current passing named).2, fun historic => apart (.inl historic)⟩

/-- The row that the repair adds passes for its candidate. -/
theorem repairStep_bound (repairing : Repairing files task request after) (bounded : isEvidenceRef request.candidateRef = true) :
    RowBound files (.str request.candidateRef, .str request.candidateDigest) (repairStep task request) := by
  refine ⟨fun _ => rfl, fun _ => artifactDigest_of_bounded bounded repairing.candidate,
    fun _ => artifactDigest_of_bounded repairing.evidenceRef repairing.evidence, fun historic => ?_⟩
  have passing : isPass (repairStep task request) = true := rfl
  cases historic.symm.trans passing

theorem repairStep_formed {later : Meta} {predicates : List Json} (repairing : Repairing files task request after)
    (declared : predicates.any (· == .str request.predicate) = true) (positive : 0 ≤ Meta.revision task)
    (grown : Meta.revision task ≤ Meta.revision later) :
    RowFormed files later predicates (repairStep task request) ↔ isEvidenceRef request.candidateRef = true := by
  constructor
  · intro formed
    exact formed.candidateRef
  · intro bounded
    refine ⟨rfl, declared, rfl, bounded, repairing.candidateDigest, ?_, repairing.evidenceRef, repairing.evidenceDigest, ?_⟩
    · exact (Bool.and_eq_true _ _).mpr ⟨rfl, List.contains_iff_mem.mpr repairing.vocabulary⟩
    · have low : (1 : Int) ≤ Meta.revision task + 1 := by omega
      have high : Meta.revision task + 1 ≤ Meta.revision later + 1 := by omega
      have stored : (repairStep task request).get "recorded_task_revision" = .int (Meta.revision task + 1) := rfl
      simp [stored, Json.exactInt?, low, high]

theorem passed_append {rows : List Json} {fresh : Json} (passing : isPass fresh = true) :
    passed (rows ++ [fresh]) = passed rows ++ [(fresh.get "predicate_id").text] := by
  simp [passed, passing]

/-- The ledger that a repair leaves at the next revision is valid exactly when the repair was compatible. -/
theorem Repairing.ledgerValid_iff {spec : Json} {later : Meta} (repairing : Repairing files task request after)
    (same : later.get "evidence_ledger" = after.get "evidence_ledger")
    (grown : Meta.revision task ≤ Meta.revision later) (positive : 0 ≤ Meta.revision task)
    (declared : (predicatesOf spec).any (· == .str request.predicate) = true)
    (named : ∀ predicate ∈ predicatesOf spec, predicate.isStr = true)
    (formed : ∀ row ∈ rowsOf task, RowFormed files task (predicatesOf spec) row) :
    LedgerValid files later spec ↔ Compatible files task request := by
  have rows : rowsOf later = superseded request.predicate (rowsOf task) ++ [repairStep task request] := by
    rw [← repairing.rows, rowsOf, same, rowsOf]
  have candidate : candidateOf later = (.str request.candidateRef, .str request.candidateDigest) := by
    rw [← repairing.candidateOf_eq, candidateOf, same, candidateOf]
  have texts (row : Json) (member : row ∈ rowsOf task) : (row.get "predicate_id").isStr = true := by
    obtain ⟨predicate, listed, equal⟩ := List.any_eq_true.mp (formed row member).known
    obtain ⟨word, rfl⟩ := Json.isStr_iff.mp (named predicate listed)
    rw [(Json.str_beq _ _).mp equal]
    rfl
  have unique : (passed (rowsOf later)).Nodup ↔ (passed (othersOf request.predicate (rowsOf task))).Nodup := by
    have passing : isPass (repairStep task request) = true := rfl
    have fresh : ((repairStep task request).get "predicate_id").text = request.predicate := rfl
    rw [rows, passed_append passing, passed_superseded repairing.objects, fresh, List.nodup_append]
    have absent : request.predicate ∉ passed (othersOf request.predicate (rowsOf task)) := predicate_of_others texts
    refine ⟨fun nodup => nodup.1, fun nodup => ⟨nodup, List.nodup_singleton _, ?_⟩⟩
    rintro other listed _ last rfl
    exact absent (List.mem_singleton.mp last ▸ listed)
  have written : later.get "evidence_ledger" = .obj ((((task.get "evidence_ledger").fields.set "candidate_ref"
      (.str request.candidateRef)).set "candidate_digest" (.str request.candidateDigest)).set "steps"
        (.arr (superseded request.predicate (rowsOf task) ++ [repairStep task request]))) := by
    rw [same, repairing.written, get_set, if_pos rfl]
    rfl
  have shape : (later.get "evidence_ledger").hasExactly ledgerFields = true := by
    have before := repairing.shape
    have object : (task.get "evidence_ledger").isObj = true := by
      simp only [Json.hasExactly, Bool.and_eq_true] at before
      exact before.1.1
    obtain ⟨fields, recorded⟩ := Json.isObj_iff.mp object
    rw [recorded] at before
    rw [written, recorded]
    exact Json.hasExactly_set (Json.hasExactly_set (Json.hasExactly_set before (by decide) _) (by decide) _) (by decide) _
  constructor
  · intro valid
    have last := valid.rows (repairStep task request) (by rw [rows]; exact List.mem_append_right _ List.mem_cons_self)
    have bounded := (repairStep_formed repairing declared positive grown).mp last.1
    have found := artifactDigest_of_bounded bounded repairing.candidate
    have each (row : Json) (member : row ∈ rowsOf task) := by
      have kept := (valid.rows (if row.get "predicate_id" == .str request.predicate then staled row else row) (by
        rw [rows]
        exact List.mem_append_left _ (List.mem_map.mpr ⟨row, member, rfl⟩))).2
      rw [candidate] at kept
      exact (superseded_bound (repairing.objects row member) found).mp kept
    exact ⟨bounded, fun row member => (each row member).1, fun row member => (each row member).2, unique.mp valid.unique⟩
  · intro compatible
    have found := artifactDigest_of_bounded compatible.bounded repairing.candidate
    refine ⟨shape, ?_, ?_, fun row member => ?_, unique.mpr compatible.unique⟩
    · rw [written, Json.get_obj, get_set, if_pos rfl]
      rfl
    · rw [candidate]
      have digest : digestValid (.str request.candidateDigest) = true := repairing.candidateDigest
      exact (artifactDigest_eq digest).mpr found
    · rw [candidate]
      rw [rows, List.mem_append] at member
      obtain kept | last := member
      · obtain ⟨row, old, rfl⟩ := List.mem_map.mp kept
        refine ⟨?_, (superseded_bound (repairing.objects row old) found).mpr ⟨compatible.apart row old, compatible.current row old⟩⟩
        split
        · exact staled_formed grown (formed row old)
        · exact (formed row old).later grown
      · rw [List.mem_singleton.mp last]
        exact ⟨(repairStep_formed repairing declared positive grown).mpr compatible.bounded,
          repairStep_bound repairing compatible.bounded⟩

end repairs

section validation

variable {files : Files} {task : Meta}

/-- Validation with the ledger asks for the same as without it and for a ledger without errors. -/
theorem taskSpecErrors_ledger (linked : task.has "spec_ref" = true) :
    taskSpecErrors files task true = [] ↔ taskSpecErrors files task false = [] ∧ evidenceLedgerErrors files task = [] := by
  have bound : (!hasSpec task) = false := by simp [hasSpec, linked]
  simp only [taskSpecErrors, bound, Bool.false_eq_true, ↓reduceIte]
  generalize (if task.has "id" = true then taskText task else "task") = name
  by_cases invalid : (!(metadataErrors name task).isEmpty) = true
  · have present : metadataErrors name task ≠ [] := by simpa using invalid
    simp only [if_pos invalid, present, false_and]
  · simp only [if_neg invalid]
    cases loadSpec files name (task.get "spec_ref").text with
    | error reason => simp
    | ok spec => simp only [sorted_eq_nil, List.append_eq_nil_iff, List.append_nil, and_assoc]

theorem valid_ledger (linked : task.has "spec_ref" = true) :
    Valid files true task ↔ Valid files false task ∧ evidenceLedgerErrors files task = [] := by
  have front : checks files true = (checks files true).take 25 ++ [specCheck files true] := rfl
  have plain : checks files false = (checks files true).take 25 ++ [specCheck files false] := rfl
  constructor
  · intro valid
    have both := (taskSpecErrors_ledger linked).mp valid.spec
    refine ⟨⟨valid.required, valid.known, fun check member => ?_⟩, both.2⟩
    rw [plain, List.mem_append] at member
    obtain early | last := member
    · exact valid.passed check (List.mem_of_mem_take early)
    · rw [List.mem_singleton.mp last]
      exact both.1
  · rintro ⟨valid, clean⟩
    refine ⟨valid.required, valid.known, fun check member => ?_⟩
    rw [front, List.mem_append] at member
    obtain early | last := member
    · refine valid.passed check ?_
      rw [plain]
      exact List.mem_append_left _ early
    · rw [List.mem_singleton.mp last]
      exact (taskSpecErrors_ledger linked).mpr ⟨valid.spec, clean⟩

end validation

/-- Every row of before stands in its place, unchanged or turned from pass to stale, and one row follows. -/
def RowsRetained (task after : Meta) : Prop :=
  ∃ kept fresh, rowsOf after = kept ++ [fresh] ∧ List.Forall₂ RowKept (rowsOf task) kept

theorem Repairing.rowsRetained {files : Files} {task after later : Meta} {request : RepairRequest}
    (repairing : Repairing files task request after) (same : later.get "evidence_ledger" = after.get "evidence_ledger") :
    RowsRetained task later := by
  refine ⟨superseded request.predicate (rowsOf task), repairStep task request, ?_, forall₂_map (fun row => ?_) _⟩
  · rw [← repairing.rows, rowsOf, same, rowsOf]
  · split
    · exact rowKept_staled row
    · exact .inl rfl

section commits

variable {files : Files} {backend : Backend} {world : Moment} {store after : Store} {name : String} {target : TaskGraph.Task}
  {request : RepairRequest}

theorem repaired_iff {task : Meta} {note : String} (distinct : Distinct store.tasks)
    (commits : Commits files backend world store name (.repairPredicateLedger request) target task note after)
    (formed : ∀ spec, readSpec files target.fields = .ok spec →
      ∀ row ∈ rowsOf target.fields, RowFormed files target.fields (predicatesOf spec) row) :
    ∃ repaired, locate after name = .ok repaired ∧ RowsRetained target.fields repaired.fields ∧
      ((evidenceLedgerErrors files repaired.fields = [] ∧ basicTaskErrors files repaired.path repaired.fields true = []) ↔
        Compatible files target.fields request) := by
  have repairing : Repairing files target.fields request task := repair_eq_ok commits.applied
  have same : (committed target task note world.now).fields.get "evidence_ledger" = task.get "evidence_ledger" :=
    advanced_get (by decide)
  have named : (committed target task note world.now).fields.get "id" = .str name := by
    rw [← commits.named]
    exact (advanced_get (by decide)).trans (repairing.within.get (by decide))
  have located : locate after name = .ok (committed target task note world.now) := by
    refine locate_of_mem ?_ ?_ named
    · rw [commits.tasks]
      exact rewritten_distinct distinct commits.member rfl commits.idOf_eq
    · rw [commits.tasks]
      exact rewritten_mem commits.member rfl
  refine ⟨_, located, repairing.rowsRetained same, ?_⟩
  have linked : (advanced task world.now).has "spec_ref" = true := by
    rw [(advanced_within task world.now).has (by decide), repairing.within.has (by decide), repairing.linked]
  have clean : taskSpecErrors files (advanced task world.now) false = [] := commits.valid.spec
  obtain ⟨spec, object, loaded⟩ := loadSpec_of_valid linked clean
  have reference : (advanced task world.now).get "spec_ref" = target.fields.get "spec_ref" :=
    (advanced_get (by decide)).trans (repairing.within.get (by decide))
  obtain ⟨declaredSpec, read, declared⟩ := repairing.declared
  have readHere : readSpec files target.fields = .ok spec := by
    rw [readSpec, ← reference, loadSpec_eq_ok (loaded "")]
    rfl
  obtain rfl : declaredSpec = spec := Except.ok.inj (read.symm.trans readHere)
  have words := predicates_named linked clean _ _ (loaded (taskText (advanced task world.now)))
  have revisions : Meta.revision (advanced task world.now) = Meta.revision target.fields + 1 := by
    rw [revision_advanced, Meta.revision, repairing.within.get (by decide), Meta.revision]
  have positive : 0 ≤ Meta.revision target.fields := by
    obtain ⟨number, -, current, low⟩ := commits.valid.revision_pos
    rw [revisions] at current
    omega
  have present : (advanced task world.now).get "evidence_ledger" ≠ .null := by
    intro absent
    rw [advanced_get (by decide), repairing.written, get_set, if_pos rfl] at absent
    cases absent
  have ledgers : evidenceLedgerErrors files (advanced task world.now) = [] ↔ Compatible files target.fields request := by
    rw [evidenceLedgerErrors_iff (loaded _) object words, or_iff_right present]
    exact repairing.ledgerValid_iff same (by omega) positive declared words (formed _ read)
  rw [← ledgers]
  exact ⟨fun both => both.1, fun clean => ⟨clean, basicTaskErrors_eq_nil.mpr ((valid_ledger linked).mpr ⟨commits.valid, clean⟩)⟩⟩

/-- A repair that either authority accepts over well-formed rows keeps them all, and the task that it commits passes validation
with its ledger exactly when the repair was compatible with the rows. -/
theorem repair_valid_iff (distinct : Distinct store.tasks) (found : locate store name = .ok target)
    (formed : ∀ spec, readSpec files target.fields = .ok spec →
      ∀ row ∈ rowsOf target.fields, RowFormed files target.fields (predicatesOf spec) row)
    (accepted : mutate files backend world store name (.repairPredicateLedger request) = .ok after) :
    ∃ repaired, locate after name = .ok repaired ∧ RowsRetained target.fields repaired.fields ∧
      ((evidenceLedgerErrors files repaired.fields = [] ∧ basicTaskErrors files repaired.path repaired.fields true = []) ↔
        Compatible files target.fields request) := by
  obtain ⟨selected, task, note, commits⟩ := mutate_eq_ok distinct accepted
  obtain rfl : selected = target := by
    have here := locate_of_mem distinct commits.member commits.named
    exact Except.ok.inj (here.symm.trans found)
  exact repaired_iff distinct commits formed

end commits

/-- Two predicates under the sample specification. -/
def pairSpec : Json := .obj (sampleSpec.fields.set "acceptance_predicates" (.arr
  [.obj [("id", .str "predicate-1"), ("description", .str "It works.")],
    .obj [("id", .str "predicate-2"), ("description", .str "It stays.")]]))

def pairFiles : Files := { artifactFiles with spec := fun _ => .ok pairSpec }

def sampleRow (predicate : String) : Json :=
  .obj [("predicate_id", .str predicate), ("status", .str "pass"), ("candidate_ref", .str "one.json"),
    ("candidate_digest", .str sampleDigest), ("evidence_class", .str "mechanical"), ("evidence_ref", .str "evidence.json"),
    ("evidence_digest", .str sampleDigest), ("recorded_task_revision", .int 4)]

/-- A done task whose predicates have passed for the first candidate. -/
def doneSample (predicates : List String) : TaskGraph.Task where
  path := "tasks/AR-0001.md"
  fields := sampleTask "AR-0001" "done" "" "" 4 ++ [("spec_ref", .str "specs/one.json"), ("spec_revision", .int 1),
    ("evidence_ledger", .obj [("candidate_ref", .str "one.json"), ("candidate_digest", .str sampleDigest),
      ("steps", .arr (predicates.map sampleRow))])]
  body := ""

def doneStore (predicates : List String) : Store where
  tasks := [doneSample predicates]
  sessions _ := []
  checkpoints _ := []
  events := []

/-- A repair of the first predicate for the second candidate. -/
def sampleRepair : RepairRequest where
  expectedRevision := 4
  predicate := "predicate-1"
  evidenceClass := "mechanical"
  evidenceRef := "evidence.json"
  evidenceDigest := sampleDigest
  candidateRef := "two.json"
  candidateDigest := sampleDigest
  reason := "Retarget."

theorem sample_texts : evidenceRefValid (.str "one.json") = true ∧ evidenceRefValid (.str "two.json") = true ∧
    evidenceRefValid (.str "evidence.json") = true ∧ digestValid (.str sampleDigest) = true ∧
    RetryCircuit.oneOf (.str "mechanical") (evidenceClasses pairFiles) = true ∧
    RetryCircuit.oneOf (.str "pass") ["pass", "stale"] = true := by
  decide +kernel

theorem sampleRow_formed (predicates : List String) (known : ∀ predicate ∈ predicates,
      (predicatesOf pairSpec).any (· == .str predicate) = true) (spec : Json)
    (read : readSpec pairFiles (doneSample predicates).fields = .ok spec) :
    ∀ row ∈ rowsOf (doneSample predicates).fields, RowFormed pairFiles (doneSample predicates).fields (predicatesOf spec) row := by
  intro row member
  obtain rfl : pairSpec = spec := Except.ok.inj read
  obtain ⟨predicate, listed, rfl⟩ := List.mem_map.mp member
  obtain ⟨first, -, evidence, digest, class_, status⟩ := sample_texts
  have revision : Meta.revision (doneSample predicates).fields = 4 := rfl
  have recorded : (sampleRow predicate).get "recorded_task_revision" = .int 4 := rfl
  exact ⟨rfl, known predicate listed, status, first, digest, class_, evidence, digest, by
    simp [recorded, revision, Json.exactInt?]⟩

theorem sampleRepair_accepted :
    allowed (mutate pairFiles .git sampleWorld (doneStore ["predicate-1"]) "AR-0001" (.repairPredicateLedger sampleRepair)) = true ∧
      allowed (mutate pairFiles .git sampleWorld (doneStore ["predicate-1", "predicate-2"]) "AR-0001"
        (.repairPredicateLedger sampleRepair)) = true := by
  decide +kernel

theorem doneStore_distinct (predicates : List String) : Distinct (doneStore predicates).tasks :=
  ⟨List.nodup_singleton _, List.nodup_singleton _⟩

/-- The only predicate moves to the second candidate. -/
theorem sampleRepair_valid : ∃ after repaired,
    mutate pairFiles .git sampleWorld (doneStore ["predicate-1"]) "AR-0001" (.repairPredicateLedger sampleRepair) = .ok after ∧
      locate after "AR-0001" = .ok repaired ∧ RowsRetained (doneSample ["predicate-1"]).fields repaired.fields ∧
      evidenceLedgerErrors pairFiles repaired.fields = [] := by
  obtain ⟨after, accepted⟩ := allowed_iff.mp sampleRepair_accepted.1
  obtain ⟨repaired, located, retained, clean⟩ := repair_valid_iff (doneStore_distinct ["predicate-1"])
    (rfl : locate _ _ = .ok (doneSample ["predicate-1"])) (sampleRow_formed ["predicate-1"] (by decide)) accepted
  refine ⟨after, repaired, accepted, located, retained, (clean.mpr ?_).1⟩
  have rows : rowsOf (doneSample ["predicate-1"]).fields = [sampleRow "predicate-1"] := rfl
  have others : othersOf sampleRepair.predicate [sampleRow "predicate-1"] = [] := by decide
  refine ⟨sample_texts.2.1, ?_, ?_, ?_⟩
  · rw [rows]
    intro row member _ same
    rw [List.mem_singleton.mp member, rowCandidate, Prod.mk.injEq] at same
    have apart : "one.json" = "two.json" := Json.str.inj same.1
    exact absurd apart (by decide)
  · rw [rows]
    intro row member _ other
    rw [List.mem_singleton.mp member] at other
    exact absurd rfl other
  · rw [rows, others]
    exact List.nodup_nil

/-- The passing row of the second predicate stays with the first candidate. -/
theorem sampleRepair_invalid : ∃ after repaired,
    mutate pairFiles .git sampleWorld (doneStore ["predicate-1", "predicate-2"]) "AR-0001"
      (.repairPredicateLedger sampleRepair) = .ok after ∧
      locate after "AR-0001" = .ok repaired ∧
      (∀ spec, readSpec pairFiles (doneSample ["predicate-1", "predicate-2"]).fields = .ok spec →
        ∀ row ∈ rowsOf (doneSample ["predicate-1", "predicate-2"]).fields,
          RowFormed pairFiles (doneSample ["predicate-1", "predicate-2"]).fields (predicatesOf spec) row) ∧
      ¬(evidenceLedgerErrors pairFiles repaired.fields = [] ∧ basicTaskErrors pairFiles repaired.path repaired.fields true = []) := by
  obtain ⟨after, accepted⟩ := allowed_iff.mp sampleRepair_accepted.2
  have formed := sampleRow_formed ["predicate-1", "predicate-2"] (by decide)
  obtain ⟨selected, task, note, commits⟩ := mutate_eq_ok (doneStore_distinct _) accepted
  obtain rfl : selected = doneSample ["predicate-1", "predicate-2"] := List.mem_singleton.mp commits.member
  obtain ⟨repaired, located, -, clean⟩ := repaired_iff (doneStore_distinct _) commits formed
  refine ⟨after, repaired, accepted, located, formed, fun valid => ?_⟩
  have second : sampleRow "predicate-2" ∈ rowsOf (doneSample ["predicate-1", "predicate-2"]).fields := .tail _ (.head _)
  have current := ((clean.mp valid).current _ second rfl (fun same => absurd (Json.str.inj same) (by decide))).1
  rw [rowCandidate, Prod.mk.injEq] at current
  have apart : "one.json" = "two.json" := Json.str.inj current.1
  exact absurd apart (by decide)

end Coordinator.PredicateLedger
