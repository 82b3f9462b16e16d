import Coordinator.LedgerCoherence

/-! What the validator of an evidence ledger decides: which rows are well formed, which agree with the candidate and the
files, and when a whole ledger passes. -/

namespace Coordinator.PredicateLedger
open Kit Dict TaskSpec TaskValidation

/-- A row that is well formed, whatever the candidate and the artifacts are by now. -/
structure RowFormed (files : Files) (task : Meta) (predicates : List Json) (row : Json) : Prop where
  shape : row.hasExactly stepFields = true
  known : predicates.any (· == row.get "predicate_id") = true
  status : RetryCircuit.oneOf (row.get "status") ["pass", "stale"] = true
  candidateRef : evidenceRefValid (row.get "candidate_ref") = true
  candidateDigest : digestValid (row.get "candidate_digest") = true
  evidenceClass : RetryCircuit.oneOf (row.get "evidence_class") (evidenceClasses files) = true
  evidenceRef : evidenceRefValid (row.get "evidence_ref") = true
  evidenceDigest : digestValid (row.get "evidence_digest") = true
  revision : (row.get "recorded_task_revision").exactInt?.any
    (fun revision => decide (1 ≤ revision) && decide (revision ≤ Meta.revision task + 1)) = true

/-- A passing row is of the candidate and its artifacts are as recorded; a historical row is of another candidate. -/
structure RowBound (files : Files) (candidate : Json × Json) (row : Json) : Prop where
  current : isPass row = true → rowCandidate row = candidate
  artifact : isPass row = true → artifactDigest files (row.get "candidate_ref") = row.get "candidate_digest"
  evidence : isPass row = true → artifactDigest files (row.get "evidence_ref") = row.get "evidence_digest"
  apart : isPass row = false → rowCandidate row ≠ candidate

/-- The predicates that pass, row by row. -/
def passed (rows : List Json) : List String := (rows.filter isPass).map (fun row => (row.get "predicate_id").text)

section rows

variable {files : Files} {task : Meta} {ledger row : Json} {predicates rows : List Json} {seen : List String}

theorem artifactDigest_eq {value reference : Json} (valid : digestValid value = true) :
    (artifactDigest files reference != value) = false ↔ artifactDigest files reference = value := by
  obtain ⟨word, rfl⟩ := Json.isStr_iff.mp (Bool.and_eq_true _ _ ▸ valid : value.isStr = true ∧ _).1
  rw [bne, Bool.not_eq_false', Json.beq_str]

theorem stepErrors_eq_nil (named : ∀ predicate ∈ predicates, predicate.isStr = true) (shape : row.hasExactly stepFields = true) :
    stepErrors files task ledger predicates seen row = [] ↔ RowFormed files task predicates row ∧
      RowBound files (ledger.get "candidate_ref", ledger.get "candidate_digest") row ∧
      (isPass row = true → (row.get "predicate_id").text ∉ seen) := by
  simp only [stepErrors, List.append_eq_nil_iff, ite_eq_right_iff, reduceCtorEq, imp_false, Bool.not_eq_true,
    Bool.or_eq_false_iff, Bool.not_eq_false']
  constructor
  · rintro ⟨⟨⟨⟨⟨⟨⟨⟨⟨⟨⟨⟨known, fresh⟩, status⟩, ref⟩, digest⟩, bound⟩, candidate⟩, apart⟩, class_⟩, evidenceRef⟩, evidenceDigest⟩,
      evidence⟩, revision⟩
    have same := @rowCandidate_eq _ ledger (Bool.and_eq_true _ _ ▸ ref : _ ∧ _).1 (Bool.and_eq_true _ _ ▸ digest : _ ∧ _).1
    refine ⟨⟨shape, known, status, ref, digest, class_, evidenceRef, evidenceDigest, revision⟩, ⟨fun passing => ?_, fun passing => ?_,
      fun passing => ?_, fun historic => ?_⟩, fun passing listed => ?_⟩
    · rw [passing, Bool.true_and, Bool.not_eq_false'] at bound
      exact same.mp bound
    · rw [passing, Bool.true_and] at candidate
      exact (artifactDigest_eq digest).mp candidate
    · rw [passing, Bool.true_and] at evidence
      exact (artifactDigest_eq evidenceDigest).mp evidence
    · rw [historic, Bool.not_false, Bool.true_and] at apart
      exact fun equal => Bool.false_ne_true (apart.symm.trans (same.mpr equal))
    · obtain ⟨predicate, member, equal⟩ := List.any_eq_true.mp known
      obtain ⟨word, rfl⟩ := Json.isStr_iff.mp (named predicate member)
      rw [(Json.str_beq _ _).mp equal] at fresh listed
      simp [passing, Json.isStr, Json.text] at fresh listed
      exact fresh listed
  · rintro ⟨formed, bound, fresh⟩
    have same := @rowCandidate_eq _ ledger (Bool.and_eq_true _ _ ▸ formed.candidateRef : _ ∧ _).1
      (Bool.and_eq_true _ _ ▸ formed.candidateDigest : _ ∧ _).1
    refine ⟨⟨⟨⟨⟨⟨⟨⟨⟨⟨⟨⟨formed.known, ?_⟩, formed.status⟩, formed.candidateRef⟩, formed.candidateDigest⟩, ?_⟩, ?_⟩, ?_⟩,
      formed.evidenceClass⟩, formed.evidenceRef⟩, formed.evidenceDigest⟩, ?_⟩, formed.revision⟩
    · cases passing : isPass row with
      | false => exact Bool.and_false _
      | true =>
        have absent := fresh passing
        simp [absent]
    · cases passing : isPass row with
      | false => rfl
      | true =>
        rw [Bool.true_and, Bool.not_eq_false']
        exact same.mpr (bound.current passing)
    · cases passing : isPass row with
      | false => rfl
      | true =>
        rw [Bool.true_and]
        exact (artifactDigest_eq formed.candidateDigest).mpr (bound.artifact passing)
    · cases historic : isPass row with
      | true => rfl
      | false =>
        rw [Bool.not_false, Bool.true_and]
        exact Bool.eq_false_iff.mpr (mt same.mp (bound.apart historic))
    · cases passing : isPass row with
      | false => rfl
      | true =>
        rw [Bool.true_and]
        exact (artifactDigest_eq formed.evidenceDigest).mpr (bound.evidence passing)

/-- The rows of a ledger pass when each of them does and no two passing rows are of one predicate. -/
theorem ledgerSteps_eq_nil (named : ∀ predicate ∈ predicates, predicate.isStr = true) :
    ledgerSteps files task ledger predicates seen rows = [] ↔
      (∀ row ∈ rows, RowFormed files task predicates row ∧
        RowBound files (ledger.get "candidate_ref", ledger.get "candidate_digest") row) ∧
      (passed rows).Nodup ∧ ∀ predicate ∈ passed rows, predicate ∉ seen := by
  induction rows generalizing seen with
  | nil => simp [ledgerSteps, passed]
  | cons row rest ih =>
    rw [ledgerSteps]
    cases shape : row.hasExactly stepFields with
    | false =>
      refine iff_of_false (by simp) ?_
      rintro ⟨each, -⟩
      exact Bool.false_ne_true (shape.symm.trans (each row List.mem_cons_self).1.shape)
    | true =>
      simp only [Bool.not_true, Bool.false_eq_true, ↓reduceIte, List.append_eq_nil_iff, stepErrors_eq_nil named shape, ih,
        List.forall_mem_cons]
      cases passing : isPass row with
      | false => simp [passed, passing, and_assoc]
      | true =>
        have next : passed (row :: rest) = (row.get "predicate_id").text :: passed rest := by simp [passed, passing]
        rw [next, List.nodup_cons, List.forall_mem_cons]
        constructor
        · rintro ⟨⟨formed, bound, fresh⟩, each, unique, later⟩
          obtain ⟨predicate, member, equal⟩ := List.any_eq_true.mp formed.known
          obtain ⟨word, rfl⟩ := Json.isStr_iff.mp (named predicate member)
          have text : row.get "predicate_id" = .str word := (Json.str_beq _ _).mp equal
          simp only [text, Json.isStr, Bool.and_self, ↓reduceIte, Json.text] at later fresh ⊢
          exact ⟨⟨⟨formed, bound⟩, each⟩, ⟨fun again => later word again List.mem_cons_self, unique⟩, fresh trivial,
            fun other listed => mt (List.mem_cons_of_mem word) (later other listed)⟩
        · rintro ⟨⟨⟨formed, bound⟩, each⟩, ⟨apart, unique⟩, fresh, later⟩
          refine ⟨⟨formed, bound, fun _ => fresh⟩, each, unique, fun other listed again => ?_⟩
          split at again
          · obtain rfl | before := List.mem_cons.mp again
            · exact apart listed
            · exact later other listed before
          · exact later other listed again

end rows

/-- The ledger of a task passes under a specification. -/
structure LedgerValid (files : Files) (task : Meta) (spec : Json) : Prop where
  shape : (task.get "evidence_ledger").hasExactly ledgerFields = true
  rowsListed : ((task.get "evidence_ledger").get "steps").isArr = true
  candidate : (artifactDigest files (candidateOf task).1 != (candidateOf task).2) = false
  rows : ∀ row ∈ rowsOf task, RowFormed files task (predicatesOf spec) row ∧ RowBound files (candidateOf task) row
  unique : (passed (rowsOf task)).Nodup

theorem evidenceLedgerErrors_iff {files : Files} {task : Meta} {spec : Json}
    (loaded : loadSpec files (taskText task) (task.get "spec_ref").toText = .ok spec) (object : spec.isObj = true)
    (named : ∀ predicate ∈ predicatesOf spec, predicate.isStr = true) :
    evidenceLedgerErrors files task = [] ↔ task.get "evidence_ledger" = .null ∨ LedgerValid files task spec := by
  simp only [evidenceLedgerErrors]
  cases absent : (task.get "evidence_ledger").isNull with
  | true => exact iff_of_true rfl (.inl (Json.isNull_iff.mp absent))
  | false =>
    have present : task.get "evidence_ledger" ≠ .null := fun null => Bool.false_ne_true (absent.symm.trans (Json.isNull_iff.mpr null))
    rw [or_iff_right present]
    simp only [Bool.false_eq_true, ↓reduceIte]
    constructor
    · intro clean
      split at clean
      · cases clean
      next shape =>
      split at clean
      · cases clean
      next candidate =>
      split at clean
      · cases clean
      next listed =>
      rw [loaded] at clean
      simp only [object, Bool.not_true, Bool.false_eq_true, ↓reduceIte, sorted_eq_nil] at clean
      obtain ⟨rows, unique, -⟩ := (ledgerSteps_eq_nil named).mp clean
      refine ⟨by simpa using shape, by simpa using listed, ?_, rows, unique⟩
      rw [candidateOf]
      simpa using candidate
    · rintro ⟨shape, listed, candidate, rows, unique⟩
      rw [candidateOf] at candidate
      rw [shape, candidate, listed, loaded]
      simp only [object, Bool.not_true, Bool.false_eq_true, ↓reduceIte, sorted_eq_nil]
      exact (ledgerSteps_eq_nil named).mpr ⟨rows, unique, fun _ _ => List.not_mem_nil⟩

end Coordinator.PredicateLedger
