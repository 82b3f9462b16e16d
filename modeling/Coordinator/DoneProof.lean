import Coordinator.LedgerRepair

/-! The admission of a task as done. A ledger must be valid under the bound specification and prove each of its predicates;
without a ledger an exact acceptance is enough. -/

namespace Coordinator.TaskSpec
open Kit Dict PredicateLedger TaskValidation

/-- A specification that a task is bound to and that is valid under the evidence policy. -/
structure SpecBound (files : Files) (task : Meta) (spec : Json) : Prop where
  ref : (task.get "spec_ref").isStr = true
  revision : ExecutionEnvelope.positive (task.get "spec_revision") = true
  loaded : loadSpec files (taskText task) (task.get "spec_ref").toText = .ok spec
  object : spec.isObj = true
  valid : specErrors spec (evidenceClasses files) = []
  sameRevision : (spec.get "spec_revision" != task.get "spec_revision") = false
  sameRef : (spec.get "spec_ref" != task.get "spec_ref") = false

/-- A row that proves a predicate for the candidate of the ledger, with the artifacts that it names. -/
structure Proves (files : Files) (task : Meta) (predicate row : Json) : Prop where
  passing : isPass row = true
  named : row.get "predicate_id" = predicate
  current : rowCandidate row = candidateOf task
  artifact : artifactDigest files (row.get "candidate_ref") = row.get "candidate_digest"
  evidence : artifactDigest files (row.get "evidence_ref") = row.get "evidence_digest"

/-- An acceptance with exactly its fields, bound to the reference and the revision of the specification. -/
structure AcceptanceExact (files : Files) (task : Meta) : Prop where
  shape : (task.get "spec_acceptance").hasExactly (acceptanceFields task) = true
  effort : hasSpec task = false → (task.get "spec_acceptance").get "match" = .str "best_effort"
  ref : hasSpec task = true → ((task.get "spec_acceptance").get "spec_ref" != task.get "spec_ref") = false
  revision : hasSpec task = true → ((task.get "spec_acceptance").get "spec_revision" != task.get "spec_revision") = false
  status : (task.get "spec_acceptance").get "status" = .str "pass"
  evidenceClass : RetryCircuit.oneOf ((task.get "spec_acceptance").get "evidence_class") (evidenceClasses files) = true
  evidenceRef : evidenceRefValid ((task.get "spec_acceptance").get "evidence_ref") = true
  evidenceDigest : digestValid ((task.get "spec_acceptance").get "evidence_digest") = true

section admission

variable {files : Files} {task : Meta} {spec : Json}

theorem loadSpec_anywhere {taskId other reference : String} (loaded : loadSpec files taskId reference = .ok spec) :
    loadSpec files other reference = .ok spec := by
  have known := loadSpec_eq_ok loaded
  unfold loadSpec at loaded ⊢
  split at loaded
  · cases loaded
  · next safe => rw [if_neg safe, known]

theorem toText_str {value : Json} (word : value.isStr = true) : value.toText = value.text := by
  obtain ⟨text, rfl⟩ := Json.isStr_iff.mp word
  rfl

theorem metadataErrors_eq_nil {taskId : String} : metadataErrors taskId task = [] ↔
    (task.get "spec_ref").isStr = true ∧ ExecutionEnvelope.positive (task.get "spec_revision") = true := by
  simp only [metadataErrors]
  cases (task.get "spec_ref").isStr <;> cases ExecutionEnvelope.positive (task.get "spec_revision") <;> simp

/-- A task with a specification is valid when it is bound to a valid one and its ledger has no errors. -/
theorem taskSpecErrors_bound {includeLedger : Bool} (linked : hasSpec task = true) : taskSpecErrors files task includeLedger = [] ↔
    ∃ spec, SpecBound files task spec ∧ (includeLedger = true → evidenceLedgerErrors files task = []) := by
  simp only [taskSpecErrors, linked, Bool.not_true, Bool.false_eq_true, ↓reduceIte]
  generalize (if task.has "id" = true then taskText task else "task") = name
  by_cases fields : metadataErrors name task = []
  · obtain ⟨ref, revision⟩ := metadataErrors_eq_nil.mp fields
    have text := toText_str ref
    simp only [fields, List.isEmpty_nil, Bool.not_true, Bool.false_eq_true, ↓reduceIte]
    constructor
    · intro clean
      cases loaded : loadSpec files name (task.get "spec_ref").text with
      | error reason => simp [loaded] at clean
      | ok spec =>
        simp only [loaded, sorted_eq_nil, List.append_eq_nil_iff, List.map_eq_nil_iff, ite_eq_right_iff, reduceCtorEq,
          imp_false, Bool.not_eq_true, Bool.and_eq_false_imp] at clean
        obtain ⟨⟨⟨errors, sameRevision⟩, sameRef⟩, ledger⟩ := clean
        have object : spec.isObj = true := by
          unfold specErrors at errors
          split at errors
          · cases errors
          · next object => simpa using object
        exact ⟨spec, ⟨ref, revision, text ▸ loadSpec_anywhere loaded, object, errors, sameRevision object, sameRef object⟩, ledger⟩
    · rintro ⟨spec, bound, ledger⟩
      have loaded : loadSpec files name (task.get "spec_ref").text = .ok spec := text ▸ loadSpec_anywhere bound.loaded
      simpa [loaded, sorted_eq_nil, bound.valid, bound.sameRevision, bound.sameRef] using ledger
  · have present : (!(metadataErrors name task).isEmpty) = true := by simpa using fields
    rw [if_pos present]
    refine iff_of_false fields ?_
    rintro ⟨spec, bound, -⟩
    exact fields (metadataErrors_eq_nil.mpr ⟨bound.ref, bound.revision⟩)

theorem SpecBound.linked (bound : SpecBound files task spec) : task.has "spec_ref" = true := by
  refine Dict.has_of_get_ne fun absent => ?_
  have word := bound.ref
  rw [absent] at word
  cases word

theorem SpecBound.hasSpec (bound : SpecBound files task spec) : hasSpec task = true := by
  simp [TaskSpec.hasSpec, bound.linked]

theorem SpecBound.named (bound : SpecBound files task spec) : ∀ predicate ∈ predicatesOf spec, predicate.isStr = true := by
  have clean : taskSpecErrors files task false = [] := (taskSpecErrors_bound bound.hasSpec).mpr ⟨spec, bound, nofun⟩
  exact predicates_named bound.linked clean _ spec bound.loaded

theorem acceptanceError_eq_none : acceptanceError files task = none ↔ AcceptanceExact files task := by
  simp only [acceptanceError]
  constructor
  · intro clean
    split at clean
    · cases clean
    next shape =>
    split at clean
    · cases clean
    next effort =>
    split at clean
    · cases clean
    next ref =>
    split at clean
    · cases clean
    next revision =>
    split at clean
    · cases clean
    next status =>
    split at clean
    · cases clean
    next evidenceClass =>
    split at clean
    · cases clean
    next evidenceRef =>
    split at clean
    · cases clean
    next evidenceDigest =>
    refine ⟨by simpa using shape, fun free => ?_, fun linked => ?_, fun linked => ?_, ?_, by simpa using evidenceClass,
      by simpa using evidenceRef, by simpa using evidenceDigest⟩
    · rw [free, Bool.not_false, Bool.true_and, bne, Bool.not_eq_true', ← Bool.not_eq_true, Json.beq_str, not_not] at effort
      exact effort
    · rw [linked, Bool.true_and] at ref
      exact Bool.eq_false_iff.mpr ref
    · rw [linked, Bool.true_and] at revision
      exact Bool.eq_false_iff.mpr revision
    · rw [bne, Bool.not_eq_true', ← Bool.not_eq_true, Json.beq_str, not_not] at status
      exact status
  · rintro ⟨shape, effort, ref, revision, status, evidenceClass, evidenceRef, evidenceDigest⟩
    have passing : ((task.get "spec_acceptance").get "status" != .str "pass") = false := by
      rw [bne, Bool.not_eq_false', Json.beq_str]
      exact status
    have free : (!hasSpec task && (task.get "spec_acceptance").get "match" != .str "best_effort") = false := by
      cases linked : hasSpec task with
      | true => rfl
      | false =>
        rw [Bool.not_false, Bool.true_and, bne, Bool.not_eq_false', Json.beq_str]
        exact effort linked
    have sameRef : (hasSpec task && (task.get "spec_acceptance").get "spec_ref" != task.get "spec_ref") = false := by
      cases linked : hasSpec task with
      | true => exact ref linked
      | false => rfl
    have sameRevision : (hasSpec task && (task.get "spec_acceptance").get "spec_revision" != task.get "spec_revision") =
        false := by
      cases linked : hasSpec task with
      | true => exact revision linked
      | false => rfl
    simp [shape, free, sameRef, sameRevision, passing, evidenceClass, evidenceRef, evidenceDigest]

/-- The objects among the items of a valid specification are all of them. -/
theorem SpecBound.objects (bound : SpecBound files task spec) :
    ∀ item ∈ (spec.get "acceptance_predicates").items, item.isObj = true := by
  have errors := bound.valid
  unfold specErrors at errors
  rw [if_neg (by simp [bound.object])] at errors
  simp only [sorted_eq_nil, List.append_eq_nil_iff, collectionErrors] at errors
  obtain ⟨⟨-, ⟨⟨⟨⟨predicates, -⟩, -⟩, -⟩, -⟩⟩, -⟩ := errors
  unfold namedItems at predicates
  split at predicates
  · cases predicates
  · obtain ⟨items, -⟩ := List.append_eq_nil_iff.mp predicates
    intro item member
    have good := List.flatMap_eq_nil_iff.mp items item member
    unfold namedItem at good
    split at good
    · cases good
    · next shape =>
      rw [Bool.not_eq_true', Bool.not_eq_false, Json.hasExactly, Bool.and_eq_true, Bool.and_eq_true] at shape
      exact shape.1.1

/-- No predicate is unmet when each has a passing row. -/
theorem nextUnmetPredicate_eq_none (bound : SpecBound files task spec) : nextUnmetPredicate files task = none ↔
    ∀ predicate ∈ predicatesOf spec, ∃ row ∈ rowsOf task, isPass row = true ∧ row.get "predicate_id" = predicate := by
  have passing : (rowsOf task).filter (fun step => step.isObj && isPass step) = (rowsOf task).filter isPass := by
    refine List.filter_congr fun row _ => ?_
    cases known : isPass row with
    | false => exact Bool.and_false _
    | true => rw [isObj_of_pass known, Bool.and_true]
  simp only [nextUnmetPredicate, bound.linked, Bool.not_true, Bool.false_eq_true, ↓reduceIte, bound.loaded, bound.object,
    Option.map_eq_none_iff, List.find?_eq_none, Bool.not_eq_true', Bool.not_eq_false]
  change (∀ item ∈ (spec.get "acceptance_predicates").items, (((rowsOf task).filter (fun step => step.isObj && isPass step)).map
    (·.get "predicate_id")).any (· == item.get "id") = true) ↔ _
  rw [passing]
  constructor
  · intro met predicate listed
    obtain ⟨item, present, rfl⟩ := List.mem_map.mp listed
    obtain ⟨named, among, same⟩ := List.any_eq_true.mp (met item (List.mem_filter.mp present).1)
    obtain ⟨row, kept, rfl⟩ := List.mem_map.mp among
    obtain ⟨word, text⟩ := Json.isStr_iff.mp (bound.named _ listed)
    rw [text, Json.beq_str] at same
    exact ⟨row, (List.mem_filter.mp kept).1, (List.mem_filter.mp kept).2, same.trans text.symm⟩
  · intro met item present
    have listed : item.get "id" ∈ predicatesOf spec :=
      List.mem_map.mpr ⟨item, List.mem_filter.mpr ⟨present, bound.objects item present⟩, rfl⟩
    obtain ⟨row, member, known, named⟩ := met _ listed
    obtain ⟨word, text⟩ := Json.isStr_iff.mp (bound.named _ listed)
    refine List.any_eq_true.mpr ⟨_, List.mem_map.mpr ⟨row, List.mem_filter.mpr ⟨member, known⟩, rfl⟩, ?_⟩
    rw [text, Json.beq_str, named, text]

/-- A valid ledger proves what its passing rows name. -/
theorem LedgerValid.proves (valid : LedgerValid files task spec) {predicate row : Json} (member : row ∈ rowsOf task)
    (passing : isPass row = true) (named : row.get "predicate_id" = predicate) : Proves files task predicate row := by
  obtain ⟨-, bound⟩ := valid.rows row member
  exact ⟨passing, named, bound.current passing, bound.artifact passing, bound.evidence passing⟩

/-- A ledger that is valid under the specification and proves every predicate of it. -/
structure LedgerProof (files : Files) (task : Meta) (spec : Json) : Prop where
  present : task.get "evidence_ledger" ≠ .null
  valid : LedgerValid files task spec
  proved : ∀ predicate ∈ predicatesOf spec, ∃ row ∈ rowsOf task, Proves files task predicate row

/-- Under its specification, a task may become done with a ledger that proves it, or without a ledger with an exact acceptance. -/
theorem SpecBound.admitted_iff (bound : SpecBound files task spec) : doneAdmissionError files task = none ↔
    LedgerProof files task spec ∨ (task.get "evidence_ledger" = .null ∧ AcceptanceExact files task) := by
  have ledgers := evidenceLedgerErrors_iff bound.loaded bound.object bound.named
  have specs : taskSpecErrors files task true = [] ↔ evidenceLedgerErrors files task = [] := by
    rw [taskSpecErrors_bound bound.hasSpec]
    exact ⟨fun ⟨_, _, clean⟩ => clean rfl, fun clean => ⟨spec, bound, fun _ => clean⟩⟩
  by_cases absent : task.get "evidence_ledger" = .null
  · have clean := ledgers.mpr (.inl absent)
    have null : (task.get "evidence_ledger").isNull = true := by
      rw [absent]
      rfl
    have unproved : ¬LedgerProof files task spec := fun proof => proof.present absent
    rw [or_iff_right unproved, ← acceptanceError_eq_none, doneAdmissionError, specs.mpr clean, null]
    cases acceptanceError files task <;> simp [absent]
  · have present : (task.get "evidence_ledger").isNull = false :=
      Bool.eq_false_iff.mpr fun null => absent (Json.isNull_iff.mp null)
    rw [or_iff_right absent] at ledgers
    rw [or_iff_left (fun both => absent both.1)]
    by_cases valid : LedgerValid files task spec
    · have clean := ledgers.mpr valid
      have met := nextUnmetPredicate_eq_none bound
      simp only [doneAdmissionError, specs.mpr clean, clean, present, List.isEmpty_nil, Bool.not_true, Bool.false_eq_true,
        ↓reduceIte, Bool.not_false]
      constructor
      · intro admitted
        split at admitted
        · cases admitted
        next covers =>
        refine ⟨absent, valid, fun predicate listed => ?_⟩
        obtain ⟨row, member, passing, named⟩ := met.mp (by simpa using covers) predicate listed
        exact ⟨row, member, LedgerValid.proves valid member passing named⟩
      · intro proof
        have covers : nextUnmetPredicate files task = none := met.mpr fun predicate listed => by
          obtain ⟨row, member, proves⟩ := proof.proved predicate listed
          exact ⟨row, member, proves.passing, proves.named⟩
        simp [covers]
    · have errors : taskSpecErrors files task true ≠ [] := mt specs.mp (mt ledgers.mp valid)
      refine iff_of_false ?_ (fun proof => valid proof.valid)
      simp [doneAdmissionError, errors]

/-- A task may become done exactly when it has no specification and an exact acceptance, or is bound to a valid specification
that its ledger proves or, without a ledger, its acceptance names exactly. -/
theorem done_admitted_iff (covered : hasSpec task = true ∨ task.get "evidence_ledger" = .null) :
    doneAdmissionError files task = none ↔
      (hasSpec task = false ∧ AcceptanceExact files task) ∨
      ∃ spec, SpecBound files task spec ∧
        (LedgerProof files task spec ∨ (task.get "evidence_ledger" = .null ∧ AcceptanceExact files task)) := by
  cases linked : hasSpec task with
  | false =>
    have absent := covered.resolve_left (by simp [linked])
    have unbound : ¬∃ spec, SpecBound files task spec ∧
        (LedgerProof files task spec ∨ (task.get "evidence_ledger" = .null ∧ AcceptanceExact files task)) := by
      rintro ⟨spec, bound, -⟩
      exact Bool.false_ne_true (linked.symm.trans bound.hasSpec)
    have plain : taskSpecErrors files task true = [] := by simp [taskSpecErrors, linked]
    have null : (task.get "evidence_ledger").isNull = true := by
      rw [absent]
      rfl
    rw [or_iff_left unbound, ← acceptanceError_eq_none, doneAdmissionError, plain, null]
    cases acceptanceError files task <;> simp
  | true =>
    simp only [Bool.true_eq_false, false_and, false_or]
    constructor
    · intro admitted
      have clean : taskSpecErrors files task true = [] := by
        by_contra errors
        simp [doneAdmissionError, errors] at admitted
      obtain ⟨spec, bound, -⟩ := (taskSpecErrors_bound linked).mp clean
      exact ⟨spec, bound, bound.admitted_iff.mp admitted⟩
    · rintro ⟨spec, bound, proof⟩
      exact bound.admitted_iff.mpr proof

end admission

/-- The sample task with an acceptance under its specification. -/
def acceptedSample : Meta := specifiedSample ++ [("spec_acceptance", .obj [("status", .str "pass"),
  ("evidence_class", .str "mechanical"), ("evidence_ref", .str "evidence.json"), ("evidence_digest", .str sampleDigest),
  ("spec_ref", .str "specs/one.json"), ("spec_revision", .int 1)])]

theorem acceptedSample_admitted :
    doneAdmissionError artifactFiles acceptedSample = none ∧ doneAdmissionError pairFiles acceptedSample = none := by
  decide +kernel

theorem acceptedSample_exact : AcceptanceExact artifactFiles acceptedSample := by
  obtain ⟨free, -⟩ | ⟨spec, -, proof | ⟨-, exact⟩⟩ := (done_admitted_iff (.inl rfl)).mp acceptedSample_admitted.1
  · cases free
  · exact absurd rfl proof.present
  · exact exact

/-- The same acceptance admits the task under two specifications of one reference and revision. -/
theorem acceptance_of_other_content : ∃ first second, SpecBound artifactFiles acceptedSample first ∧
    SpecBound pairFiles acceptedSample second ∧ first ≠ second ∧
    doneAdmissionError artifactFiles acceptedSample = none ∧ doneAdmissionError pairFiles acceptedSample = none := by
  have admitted (files : Files) (clean : doneAdmissionError files acceptedSample = none) :
      ∃ spec, SpecBound files acceptedSample spec := by
    have valid : taskSpecErrors files acceptedSample true = [] := by
      by_contra errors
      simp [doneAdmissionError, errors] at clean
    obtain ⟨spec, bound, -⟩ := (taskSpecErrors_bound rfl).mp valid
    exact ⟨spec, bound⟩
  obtain ⟨first, one⟩ := admitted artifactFiles acceptedSample_admitted.1
  obtain ⟨second, two⟩ := admitted pairFiles acceptedSample_admitted.2
  refine ⟨first, second, one, two, fun same => ?_, acceptedSample_admitted⟩
  have left : sampleSpec = first := Except.ok.inj (loadSpec_eq_ok one.loaded)
  have right : pairSpec = second := Except.ok.inj (loadSpec_eq_ok two.loaded)
  have counts : (predicatesOf sampleSpec).length = (predicatesOf pairSpec).length := by rw [left, right, same]
  exact absurd counts (by decide)

end Coordinator.TaskSpec
