import Coordinator.PredicateLedger
import Coordinator.Kit.Run
import Coordinator.Revision
import Coordinator.Effects

/-! Coherence of the predicate ledger. Passing rows are those of the current candidate, at most one
for each predicate, no historical row is of that candidate, and rows only ever change from pass to
stale when the candidate does. -/

namespace Coordinator.PredicateLedger
open Kit Dict TaskSpec TaskValidation

def rowsOf (task : Meta) : List Json := ((task.get "evidence_ledger").get "steps").items

/-- Reference and digest of the candidate that the ledger is about. -/
def candidateOf (task : Meta) : Json × Json :=
  ((task.get "evidence_ledger").get "candidate_ref", (task.get "evidence_ledger").get "candidate_digest")

def rowCandidate (row : Json) : Json × Json := (row.get "candidate_ref", row.get "candidate_digest")

structure Coherent (task : Meta) : Prop where
  /-- Passing rows are bound to the current candidate. -/
  bound : ∀ row ∈ rowsOf task, isPass row = true → rowCandidate row = candidateOf task
  /-- Historical rows are not of the current candidate. -/
  apart : ∀ row ∈ rowsOf task, isPass row = false → rowCandidate row ≠ candidateOf task
  /-- Every predicate has at most one passing row. -/
  unique : (rowsOf task).Pairwise fun a b => isPass a = true → isPass b = true →
    a.get "predicate_id" ≠ b.get "predicate_id"

section rows

variable {files : Files} {task : Meta} {ledger row : Json} {predicates steps : List Json} {seen : List String}

/-- What the validator has found of a row. -/
structure RowChecked (ledger : Json) (predicates : List Json) (seen : List String) (row : Json) : Prop where
  known : ∃ predicate ∈ predicates, (predicate == row.get "predicate_id") = true
  fresh : isPass row = true → (row.get "predicate_id").isStr = true → (row.get "predicate_id").text ∉ seen
  ref : (row.get "candidate_ref").isStr = true
  digest : (row.get "candidate_digest").isStr = true
  bound : isPass row = true → (row.get "candidate_ref" == ledger.get "candidate_ref" &&
    row.get "candidate_digest" == ledger.get "candidate_digest") = true
  apart : isPass row = false → (row.get "candidate_ref" == ledger.get "candidate_ref" &&
    row.get "candidate_digest" == ledger.get "candidate_digest") = false

theorem rowChecked_of_errors (clean : stepErrors files task ledger predicates seen row = []) :
    RowChecked ledger predicates seen row := by
  simp only [stepErrors, List.append_eq_nil_iff, ite_eq_right_iff, reduceCtorEq, imp_false, Bool.not_eq_true,
    Bool.or_eq_false_iff, Bool.not_eq_false', Bool.and_eq_false_iff] at clean
  obtain ⟨⟨⟨⟨⟨⟨⟨⟨⟨⟨⟨⟨known, fresh⟩, -⟩, ref⟩, digest⟩, bound⟩, -⟩, apart⟩, -⟩, -⟩, -⟩, -⟩, -⟩ := clean
  simp only [evidenceRefValid, digestValid, Bool.and_eq_true] at ref digest
  refine ⟨List.any_eq_true.mp known, fun passing named listed => ?_, ref.1, digest.1, fun passing => ?_, fun historic => ?_⟩
  · simp [passing, named, listed] at fresh
  · rw [passing] at bound
    exact bound.resolve_left (by simp)
  · rw [historic] at apart
    rw [Bool.and_eq_false_iff]
    exact apart.resolve_left (by simp)

/-- Every row of a checked ledger is checked, and passing rows name different predicates. -/
theorem rows_of_ledgerSteps (named : ∀ predicate ∈ predicates, predicate.isStr = true)
    (clean : ledgerSteps files task ledger predicates seen steps = []) :
    (∀ row ∈ steps, RowChecked ledger predicates seen row) ∧
      steps.Pairwise fun a b => isPass a = true → isPass b = true → a.get "predicate_id" ≠ b.get "predicate_id" := by
  induction steps generalizing seen with
  | nil => simp
  | cons row rest ih =>
    rw [ledgerSteps] at clean
    split at clean
    · cases clean
    · obtain ⟨here, later⟩ := List.append_eq_nil_iff.mp clean
      have checked := rowChecked_of_errors here
      obtain ⟨all, apart⟩ := ih later
      obtain ⟨predicate, listed, same⟩ := checked.known
      obtain ⟨word, text⟩ := Json.isStr_iff.mp (named predicate listed)
      have isWord : row.get "predicate_id" = .str word := by
        rw [text] at same
        exact (Json.str_beq _ _).mp same
      refine ⟨List.forall_mem_cons.mpr ⟨checked, fun other member => ?_⟩, List.pairwise_cons.mpr ⟨?_, apart⟩⟩
      · have again := all other member
        refine ⟨again.known, fun passing shape seen' => again.fresh passing shape ?_, again.ref, again.digest,
          again.bound, again.apart⟩
        split
        · exact List.mem_cons_of_mem _ seen'
        · exact seen'
      · intro other member passing passing' equal
        have shape : (other.get "predicate_id").isStr = true := by rw [← equal, isWord]; rfl
        refine (all other member).fresh passing' shape ?_
        rw [← equal, isWord]
        simp [Json.isStr, Json.text, passing]

end rows

theorem evidenceLedgerErrors_eq_nil {files : Files} {task : Meta} (clean : evidenceLedgerErrors files task = []) :
    task.get "evidence_ledger" = .null ∨ ∃ spec, loadSpec files (taskText task) (task.get "spec_ref").toText = .ok spec ∧
      ledgerSteps files task (task.get "evidence_ledger") (predicatesOf spec) [] (rowsOf task) = [] := by
  simp only [evidenceLedgerErrors] at clean
  split at clean
  · next absent => exact .inl (Json.isNull_iff.mp absent)
  split at clean
  · cases clean
  split at clean
  · cases clean
  split at clean
  · cases clean
  split at clean
  · cases clean
  next spec loaded =>
  split at clean
  · cases clean
  exact .inr ⟨spec, loaded, sorted_eq_nil.mp clean⟩

theorem coherent_of_absent {task : Meta} (absent : task.get "evidence_ledger" = .null) : Coherent task := by
  have none : rowsOf task = [] := by
    rw [rowsOf, absent]
    rfl
  exact ⟨by simp [none], by simp [none], by simp [none]⟩

/-- The comparison of a checked row with the ledger is one of equal candidates. -/
theorem rowCandidate_eq {row ledger : Json} (ref : (row.get "candidate_ref").isStr = true)
    (digest : (row.get "candidate_digest").isStr = true) : (row.get "candidate_ref" == ledger.get "candidate_ref" &&
      row.get "candidate_digest" == ledger.get "candidate_digest") = true ↔
        rowCandidate row = (ledger.get "candidate_ref", ledger.get "candidate_digest") := by
  obtain ⟨refText, isRef⟩ := Json.isStr_iff.mp ref
  obtain ⟨digestText, isDigest⟩ := Json.isStr_iff.mp digest
  rw [rowCandidate, isRef, isDigest, Bool.and_eq_true, Json.str_beq, Json.str_beq, Prod.mk.injEq]
  exact and_congr eq_comm eq_comm

/-- A ledger without errors under a specification with named predicates is coherent. -/
theorem coherent_of_errors {files : Files} {task : Meta} (named : ∀ taskId spec,
      loadSpec files taskId (task.get "spec_ref").toText = .ok spec → ∀ predicate ∈ predicatesOf spec, predicate.isStr = true)
    (clean : evidenceLedgerErrors files task = []) : Coherent task := by
  obtain absent | ⟨spec, loaded, clean⟩ := evidenceLedgerErrors_eq_nil clean
  · exact coherent_of_absent absent
  obtain ⟨all, unique⟩ := rows_of_ledgerSteps (named _ spec loaded) clean
  refine ⟨fun row member passing => ?_, fun row member historic same => ?_, unique⟩
  · have checked := all row member
    exact (rowCandidate_eq checked.ref checked.digest).mp (checked.bound passing)
  · have checked := all row member
    have equal := (rowCandidate_eq checked.ref checked.digest).mpr same
    rw [checked.apart historic] at equal
    cases equal

theorem namedItems_str {value : Json} {field : String} (clean : namedItems value field = []) :
    ∀ item ∈ value.items, (item.get "id").isStr = true := by
  unfold namedItems at clean
  split at clean
  · cases clean
  · obtain ⟨items, -⟩ := List.append_eq_nil_iff.mp clean
    intro item member
    have good := List.flatMap_eq_nil_iff.mp items item member
    unfold namedItem at good
    split at good
    · cases good
    · simp only [List.append_eq_nil_iff, ite_eq_left_iff, reduceCtorEq, imp_false, not_not, Bool.and_eq_true] at good
      exact good.1.1

theorem loadSpec_eq_ok {files : Files} {taskId specRef : String} {spec : Json}
    (loaded : loadSpec files taskId specRef = .ok spec) : files.spec specRef = .ok spec := by
  unfold loadSpec at loaded
  split at loaded
  · cases loaded
  · split at loaded
    · next value found =>
      cases loaded
      exact found
    · cases loaded

/-- The specification of a valid task is there and has no errors, whatever the task is called in messages. -/
theorem spec_of_valid {files : Files} {task : Meta} {includeLedger : Bool} (bound : task.has "spec_ref" = true)
    (clean : taskSpecErrors files task includeLedger = []) :
    ∃ spec, specErrors spec (evidenceClasses files) = [] ∧
      ∀ taskId, loadSpec files taskId (task.get "spec_ref").toText = .ok spec := by
  have linked : (!hasSpec task) = false := by simp [hasSpec, bound]
  simp only [taskSpecErrors, linked, Bool.false_eq_true, ↓reduceIte] at clean
  generalize (if task.has "id" = true then taskText task else "task") = name at clean
  by_cases invalid : (!(metadataErrors name task).isEmpty) = true
  · rw [if_pos invalid] at clean
    simp [clean] at invalid
  rw [if_neg invalid] at clean
  have text : (task.get "spec_ref").toText = (task.get "spec_ref").text := by
    by_cases word : (task.get "spec_ref").isStr = true
    · obtain ⟨reference, known⟩ := Json.isStr_iff.mp word
      rw [known]
      rfl
    · simp [metadataErrors, word] at invalid
  cases found : loadSpec files name (task.get "spec_ref").text with
  | error reason => simp [found] at clean
  | ok spec =>
    simp only [found, sorted_eq_nil, List.append_eq_nil_iff, List.map_eq_nil_iff] at clean
    refine ⟨spec, clean.1.1.1, fun taskId => ?_⟩
    rw [text]
    have known := loadSpec_eq_ok found
    unfold loadSpec at found ⊢
    split at found
    · cases found
    · next safe => rw [if_neg safe, known]

/-- The predicates of a valid specification have text names. -/
theorem predicates_named {files : Files} {task : Meta} {includeLedger : Bool} (bound : task.has "spec_ref" = true)
    (clean : taskSpecErrors files task includeLedger = []) (taskId : String) (spec : Json)
    (loaded : loadSpec files taskId (task.get "spec_ref").toText = .ok spec) :
    ∀ predicate ∈ predicatesOf spec, predicate.isStr = true := by
  obtain ⟨other, errors, known⟩ := spec_of_valid bound clean
  obtain rfl : other = spec := Except.ok.inj ((known taskId).symm.trans loaded)
  unfold specErrors at errors
  split at errors
  · cases errors
  simp only [sorted_eq_nil, List.append_eq_nil_iff, collectionErrors] at errors
  obtain ⟨⟨-, ⟨⟨⟨⟨predicates, -⟩, -⟩, -⟩, -⟩⟩, -⟩ := errors
  intro predicate member
  obtain ⟨item, listed, rfl⟩ := List.mem_map.mp member
  exact namedItems_str predicates item (List.mem_filter.mp listed).1

/-! What one accepted predicate does to the rows. -/

/-- A row stays, or turns from pass to stale. -/
def RowKept (old new : Json) : Prop := new = old ∨ (isPass old = true ∧ new = staled old)

/-- Every row stays in its place, unchanged unless the candidate changes. -/
structure RowsKept (task after : Meta) : Prop where
  rows : ∃ kept added, rowsOf after = kept ++ added ∧ List.Forall₂ RowKept (rowsOf task) kept ∧
    (candidateOf after = candidateOf task → kept = rowsOf task)

theorem staled_of_pass {row : Json} (passing : isPass row = false) : staled row = row := by
  rw [staled, passing, Bool.and_false]
  rfl

theorem rowKept_staled (row : Json) : RowKept row (staled row) := by
  cases passing : isPass row with
  | true => exact .inr ⟨passing, rfl⟩
  | false => exact .inl (staled_of_pass passing)

theorem staled_candidate (row : Json) : rowCandidate (staled row) = rowCandidate row := by
  unfold staled
  split
  · next object =>
    rw [Bool.and_eq_true] at object
    obtain ⟨fields, rfl⟩ := Json.isObj_iff.mp object.1
    simp [rowCandidate, Json.fields]
  · rfl

theorem staled_not_pass {row : Json} (object : row.isObj = true) : isPass (staled row) = false := by
  cases passing : isPass row with
  | false => rw [staled_of_pass passing, passing]
  | true =>
    rw [staled, object, passing]
    simp only [Bool.and_self, ↓reduceIte, isPass, Json.get_obj, get_set]
    rfl

/-- What an accepted predicate has checked and what it writes. -/
structure Accepted (files : Files) (task : Meta) (request : Request) (inputs : PredicateInputs) (ledger : Dict)
    (after : Meta) : Prop where
  specBound : task.has "spec_ref" = true
  specValid : taskSpecErrors files (task.pop "evidence_ledger") true = []
  read : ledgerOf task inputs = .ok ledger
  before : candidateChanged ledger inputs = false → evidenceLedgerErrors files task = []
  written : after = recordStep task ledger request inputs (candidateChanged ledger inputs)
  valid : evidenceLedgerErrors files after = []

theorem applyPredicateAcceptance_eq_ok {files : Files} {task after : Meta} {request : Request} {inputs : PredicateInputs}
    {note : String} (applied : applyPredicateAcceptance files task request inputs = .ok (after, note)) :
    ∃ ledger, Accepted files task request inputs ledger after := by
  simp only [applyPredicateAcceptance, validateSpec, requireLedger, bind_eq_ok, exists_unit, raiseIf_eq_ok, pure_eq_ok,
    Prod.mk.injEq, Bool.or_eq_false_iff, Bool.not_eq_false', List.isEmpty_iff] at applied
  obtain ⟨⟨⟨specBound, -⟩, specValid, -⟩, ledger, read, -, -, before, valid, rfl, -⟩ := applied
  refine ⟨ledger, specBound, specValid, read, fun kept => ?_, rfl, valid⟩
  rw [kept] at before
  exact before

section accepted

variable {files : Files} {task after : Meta} {request : Request} {inputs : PredicateInputs} {ledger : Dict}

theorem ledgerOf_rows (read : ledgerOf task inputs = .ok ledger) : (ledger.get "steps").items = rowsOf task := by
  unfold ledgerOf at read
  split at read
  · next absent =>
    cases read
    rw [rowsOf, absent]
    rfl
  · next fields present =>
    cases read
    rw [rowsOf, present]
    rfl
  · cases read

theorem candidateChanged_eq_false : candidateChanged ledger inputs = false ↔
    (ledger.get "candidate_ref", ledger.get "candidate_digest") = (.str inputs.candidateRef, .str inputs.candidateDigest) := by
  rw [candidateChanged, Bool.or_eq_false_iff, bne, bne, Bool.not_eq_false', Bool.not_eq_false', Json.beq_str, Json.beq_str,
    Prod.mk.injEq]

/-- A ledger that keeps its candidate is the recorded one, or starts with the candidate at hand. -/
theorem ledgerOf_candidate (read : ledgerOf task inputs = .ok ledger) :
    rowsOf task = [] ∧ candidateChanged ledger inputs = false ∨
      (ledger.get "candidate_ref", ledger.get "candidate_digest") = candidateOf task := by
  unfold ledgerOf at read
  split at read
  · next absent =>
    cases read
    exact .inl ⟨by rw [rowsOf, absent]; rfl, candidateChanged_eq_false.mpr rfl⟩
  · next fields present =>
    cases read
    rw [candidateOf, present]
    exact .inr rfl
  · cases read

/-- The rows that a new pass of a predicate keeps. -/
def superseded (predicate : String) (rows : List Json) : List Json :=
  rows.map (fun row => if row.get "predicate_id" == .str predicate then staled row else row)

theorem Accepted.rows (accepted : Accepted files task request inputs ledger after) :
    rowsOf after = superseded inputs.predicate (if candidateChanged ledger inputs then (rowsOf task).map staled
      else rowsOf task) ++ [newStep task request inputs] := by
  rw [accepted.written, rowsOf, ← ledgerOf_rows accepted.read]
  simp only [recordStep, get_set, ↓reduceIte, Json.get_obj]
  rfl

theorem Accepted.candidate (accepted : Accepted files task request inputs ledger after) :
    candidateOf after = (.str inputs.candidateRef, .str inputs.candidateDigest) := by
  rw [accepted.written, candidateOf]
  simp only [recordStep, get_set, ↓reduceIte, Json.get_obj, String.reduceEq]
  cases changed : candidateChanged ledger inputs with
  | true => simp
  | false => simpa using candidateChanged_eq_false.mp changed

theorem Accepted.named (accepted : Accepted files task request inputs ledger after) (taskId : String) (spec : Json)
    (loaded : loadSpec files taskId (task.get "spec_ref").toText = .ok spec) :
    ∀ predicate ∈ predicatesOf spec, predicate.isStr = true := by
  have frame : Within ["evidence_ledger"] task (task.pop "evidence_ledger") := (within_refl _ task).pop (by simp)
  refine predicates_named (by rw [frame.has (by decide), accepted.specBound]) accepted.specValid taskId spec ?_
  rw [frame.get (by decide)]
  exact loaded

theorem Accepted.coherent (accepted : Accepted files task request inputs ledger after) : Coherent after := by
  have frame : Within ["evidence_ledger"] task after := by
    rw [accepted.written]
    exact (within_refl _ task).set (by simp) _
  refine coherent_of_errors (fun taskId spec loaded => accepted.named taskId spec ?_) accepted.valid
  rw [← frame.get (by decide)]
  exact loaded

theorem isObj_of_pass {row : Json} (passing : isPass row = true) : row.isObj = true := by
  rw [isPass, Json.beq_str] at passing
  cases row with
  | obj fields => rfl
  | _ => cases passing

/-- While the candidate stays, no passing row has the predicate that is accepted. -/
theorem Accepted.unpassed (accepted : Accepted files task request inputs ledger after)
    (same : candidateChanged ledger inputs = false) : superseded inputs.predicate (rowsOf task) = rowsOf task := by
  have before : Coherent task := coherent_of_errors accepted.named (accepted.before same)
  refine (List.map_congr_left fun row member => ?_).trans (List.map_id _)
  split
  · next named =>
    refine staled_of_pass (Bool.not_eq_true _ ▸ fun passing => ?_)
    -- it would be a historical row of the candidate that stays
    have kept : staled row ∈ rowsOf after := by
      rw [accepted.rows, same]
      refine List.mem_append_left _ (List.mem_map.mpr ⟨row, member, if_pos named⟩)
    have current : candidateOf after = candidateOf task := by
      obtain ⟨empty, -⟩ | recorded := ledgerOf_candidate accepted.read
      · rw [empty] at member
        cases member
      · rw [accepted.candidate, ← recorded, candidateChanged_eq_false.mp same]
    refine accepted.coherent.apart _ kept (staled_not_pass (isObj_of_pass passing)) ?_
    rw [staled_candidate, current, before.bound row member passing]
  · rfl

theorem staled_staled (row : Json) : staled (staled row) = staled row := by
  cases passing : isPass row with
  | false => rw [staled_of_pass passing, staled_of_pass passing]
  | true => exact staled_of_pass (staled_not_pass (isObj_of_pass passing))

theorem forall₂_map {α : Type} {related : α → α → Prop} {change : α → α} (holds : ∀ value, related value (change value))
    (values : List α) : List.Forall₂ related values (values.map change) :=
  List.forall₂_map_right_iff.mpr (List.forall₂_same.mpr fun value _ => holds value)

/-- An accepted predicate keeps every row in its place and adds one. -/
theorem Accepted.rowsKept (accepted : Accepted files task request inputs ledger after) : RowsKept task after := by
  cases changed : candidateChanged ledger inputs with
  | false =>
    refine ⟨rowsOf task, [newStep task request inputs], ?_, List.forall₂_same.mpr fun row _ => .inl rfl, fun _ => rfl⟩
    rw [accepted.rows, changed, if_neg Bool.false_ne_true, accepted.unpassed changed]
  | true =>
    refine ⟨(rowsOf task).map staled, [newStep task request inputs], ?_, forall₂_map rowKept_staled _, fun same => ?_⟩
    · rw [accepted.rows, changed, if_pos rfl, superseded, List.map_map]
      refine congrArg (· ++ _) (List.map_congr_left fun row _ => ?_)
      simp only [Function.comp]
      split
      · exact staled_staled row
      · rfl
    · obtain ⟨-, kept⟩ | recorded := ledgerOf_candidate accepted.read
      · cases kept.symm.trans changed
      · have kept := candidateChanged_eq_false.mpr (recorded.trans (same.symm.trans accepted.candidate))
        cases kept.symm.trans changed

end accepted

/-! Runs of acceptances. -/

theorem RowKept.trans {first second third : Json} (left : RowKept first second) (right : RowKept second third) :
    RowKept first third := by
  obtain rfl | ⟨passing, rfl⟩ := left
  · exact right
  · obtain rfl | ⟨-, rfl⟩ := right
    · exact .inr ⟨passing, rfl⟩
    · exact .inr ⟨passing, staled_staled first⟩

/-- An acceptance of one predicate, or a change of the task that leaves its ledger alone. -/
inductive Change
  | accept (files : Files) (request : Request) (inputs : PredicateInputs) (at_ : String)
  | other (after : Meta)

/-- An accepted predicate is committed at the next revision, a refused one leaves the task alone. -/
def step (task : Meta) : Change → Meta
  | .accept files request inputs at_ =>
      match applyPredicateAcceptance files task request inputs with
      | .ok (after, _) => Authority.advanced after at_
      | .error _ => task
  | .other after => after

/-- Other changes leave the ledger alone. -/
def Allowed (task : Meta) : Change → Prop
  | .accept .. => True
  | .other after => after.get "evidence_ledger" = task.get "evidence_ledger"

theorem Coherent.of_same {task next : Meta} (coherent : Coherent task)
    (same : next.get "evidence_ledger" = task.get "evidence_ledger") : Coherent next := by
  have rows : rowsOf next = rowsOf task := by rw [rowsOf, rowsOf, same]
  have candidate : candidateOf next = candidateOf task := by rw [candidateOf, candidateOf, same]
  refine ⟨?_, ?_, ?_⟩
  · rw [rows, candidate]
    exact coherent.bound
  · rw [rows, candidate]
    exact coherent.apart
  · rw [rows]
    exact coherent.unique

theorem RowsKept.of_same {task next : Meta} (same : next.get "evidence_ledger" = task.get "evidence_ledger") :
    RowsKept task next := by
  have rows : rowsOf next = rowsOf task := by rw [rowsOf, rowsOf, same]
  exact ⟨rowsOf task, [], by rw [rows, List.append_nil], List.forall₂_same.mpr fun row _ => .inl rfl, fun _ => rfl⟩

/-- The rows of a task stand at the beginning of the later rows, each unchanged or turned stale. -/
def Persists (task later : Meta) : Prop :=
  ∃ kept added, rowsOf later = kept ++ added ∧ List.Forall₂ RowKept (rowsOf task) kept

theorem RowsKept.persists {task after : Meta} (kept : RowsKept task after) : Persists task after := by
  obtain ⟨rows, added, split, related, -⟩ := kept.rows
  exact ⟨rows, added, split, related⟩

theorem persists_refl (task : Meta) : Persists task task :=
  ⟨rowsOf task, [], (List.append_nil _).symm, List.forall₂_same.mpr fun _ _ => .inl rfl⟩

theorem forall₂_trans {first second third : List Json} (left : List.Forall₂ RowKept first second)
    (right : List.Forall₂ RowKept second third) : List.Forall₂ RowKept first third := by
  induction left generalizing third with
  | nil => exact right
  | cons here _ ih =>
    cases right with
    | cons there rest => exact .cons (here.trans there) (ih rest)

theorem Persists.trans {first second third : Meta} (left : Persists first second) (right : Persists second third) :
    Persists first third := by
  obtain ⟨kept, added, rows, related⟩ := left
  obtain ⟨later, more, further, again⟩ := right
  rw [rows] at again
  have front := List.forall₂_take kept.length again
  rw [List.take_left] at front
  refine ⟨later.take kept.length, later.drop kept.length ++ more, ?_, forall₂_trans related front⟩
  rw [further, ← List.append_assoc, List.take_append_drop]

theorem step_keeps {task : Meta} {change : Change} (coherent : Coherent task) (allowed : Allowed task change) :
    Coherent (step task change) ∧ RowsKept task (step task change) := by
  cases change with
  | other after => exact ⟨coherent.of_same allowed, .of_same allowed⟩
  | accept files request inputs at_ =>
    simp only [step]
    split
    · next after note applied =>
      obtain ⟨ledger, accepted⟩ := applyPredicateAcceptance_eq_ok applied
      have same : (Authority.advanced after at_).get "evidence_ledger" = after.get "evidence_ledger" :=
        Authority.advanced_get (by decide)
      refine ⟨accepted.coherent.of_same same, ?_⟩
      obtain ⟨kept, added, rows, related, fixed⟩ := accepted.rowsKept.rows
      refine ⟨kept, added, ?_, related, ?_⟩
      · rw [rowsOf, same]
        exact rows
      · rw [candidateOf, same]
        exact fixed
    · exact ⟨coherent, .of_same rfl⟩

/-- In every run of predicate acceptances from a coherent ledger, for example from none, the ledger is
coherent after every step, every step keeps the rows in their places and changes them only with the
candidate, and the rows of the start persist. -/
theorem ledger_run (task : Meta) (coherent : Coherent task) (changes : List Change)
    (allowed : Run.Along step Allowed task changes) :
    Run.Steps step (fun before _ after => Coherent after ∧ RowsKept before after) task changes ∧
      Coherent (Run.final step task changes) ∧ Persists task (Run.final step task changes) := by
  have keeps (before : Meta) (change : Change) (holds : Coherent before ∧ Persists task before)
      (permitted : Allowed before change) : Coherent (step before change) ∧ Persists task (step before change) :=
    have kept := step_keeps holds.1 permitted
    ⟨kept.1, holds.2.trans kept.2.persists⟩
  have steps (before : Meta) (change : Change) (holds : Coherent before ∧ Persists task before)
      (permitted : Allowed before change) : Coherent (step before change) ∧ RowsKept before (step before change) :=
    step_keeps holds.1 permitted
  have start : Coherent task ∧ Persists task task := ⟨coherent, persists_refl task⟩
  exact ⟨Run.steps_of_invariant step keeps steps changes task start allowed,
    Run.invariant step keeps changes task start allowed⟩

/-- The sample task under the sample specification. -/
def specifiedSample : Meta := claimedSample ++ [("spec_ref", .str "specs/one.json"), ("spec_revision", .int 1)]

/-- The sample files with readable artifacts. -/
def artifactFiles : Files := { sampleFiles with artifact := fun _ => some sampleDigest }

/-- An acceptance of the sample predicate for one candidate. -/
def samplePass (candidate : String) (reopen : Bool) : Change :=
  .accept artifactFiles
    { task := "AR-0001", owner := "worker", expectedRevision := 4, note := "Accepted.", evidenceClass := "mechanical",
      evidenceRef := "evidence/one.json", evidenceDigest := sampleDigest, predicate := some "predicate-1",
      candidateRef := some candidate, candidateDigest := some sampleDigest, reopen := reopen }
    ⟨"predicate-1", candidate, sampleDigest, reopen⟩ sampleWorld.now

/-- The sample predicate is accepted for one candidate and, reopened, for a second one. -/
theorem samplePasses_coherent :
    (rowsOf (Run.final step specifiedSample [samplePass "candidates/one.json" false, samplePass "candidates/two.json" true])).map
        (fun row => (row.get "status").text) = ["stale", "pass"] ∧
      Coherent (Run.final step specifiedSample
        [samplePass "candidates/one.json" false, samplePass "candidates/two.json" true]) :=
  ⟨by decide +kernel, (ledger_run specifiedSample (coherent_of_absent rfl)
    [samplePass "candidates/one.json" false, samplePass "candidates/two.json" true] ⟨trivial, trivial, trivial⟩).2.1⟩

end Coordinator.PredicateLedger
