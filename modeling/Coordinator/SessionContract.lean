import Coordinator.Kit.Guard
import Coordinator.Kit.JsonText

/-! The contract of durable upgrade sessions: the records of a journal transaction, and the recovery decisions made of them. -/

namespace Coordinator.SessionContract
open Kit Json

inductive Fault where
  | contractError (message : String)
  | typeError
  | keyError (key : String)
  deriving DecidableEq

abbrev Outcome (α : Type) := Except Fault α

def refuseIf (bad : Bool) (message : String) : Outcome Unit := raiseIf bad (.contractError message)

/-- Membership in a set of texts, which is a question for hashable values only. -/
def among (value : Json) (names : List String) : Outcome Bool :=
  match value with
  | .arr _ => .error .typeError
  | .obj _ => .error .typeError
  | plain => .ok (names.any (fun name => plain == .str name))

/-- The entry of a mapping that must be there. -/
def entry (fields : Dict) (key : String) : Outcome Json := orRaise (fields.find key) (.keyError key)

def transactionFields : List String :=
  ["operation_id", "sequence", "intent", "state", "state_revision", "journal_identity", "fsync"]

def validateTransactionRecord (record : Json) (expected : Dict) (sequence : Nat) : Outcome Json := do
  refuseIf (!record.hasExactly transactionFields) "journal transaction fields are incomplete"
  refuseIf ((record.get "sequence").exactInt? != some (sequence : Int)) "journal transaction sequence is discontinuous"
  let intent ← among (record.get "intent") ["append", "replay"]
  refuseIf (!intent) "journal transaction intent is invalid"
  let state ← among (record.get "state") ["captured", "terminal", "rollback_required", "ambiguous"]
  refuseIf (!state) "journal transaction state is invalid"
  let revision ← entry expected "state_revision"
  refuseIf (record.get "state_revision" != revision) "journal transaction revision is stale"
  let identity ← entry expected "journal_identity"
  refuseIf (record.get "journal_identity" != identity) "journal transaction identity is foreign"
  refuseIf (record.get "state" == .str "ambiguous" || record.get "fsync" == .str "uncertain")
    "ambiguous journal transaction requires safe mode"
  refuseIf (record.get "fsync" != .str "durable") "journal transaction fsync is invalid"
  pure record

/-- The records from one place on, behind a terminal one or not. -/
def validateFrom (expected : Dict) : Nat → Bool → List Json → Outcome (List Json)
  | _, _, [] => pure []
  | sequence, terminalSeen, record :: rest => do
      let current ← validateTransactionRecord record expected sequence
      refuseIf terminalSeen "journal transaction continues after terminal state"
      let others ← validateFrom expected (sequence + 1) (current.get "state" == .str "terminal") rest
      pure (current :: others)

def validateJournalTransaction (records : List Json) (expected : Dict) : Outcome (List Json) := do
  refuseIf records.isEmpty "journal transaction is missing"
  validateFrom expected 0 false records

def decisionFields : List String :=
  ["operation_id", "state_revision", "journal_identity", "decision", "safe_mode", "rollback_required"]

/-- The decision for the last record of a transaction. -/
def decided (last : Json) : Json :=
  let choice := if last.get "state" == .str "terminal" then "terminal"
    else if last.get "state" == .str "rollback_required" then "rollback_required" else "resume"
  let away := choice == "rollback_required"
  .obj [("operation_id", last.get "operation_id"), ("state_revision", last.get "state_revision"),
    ("journal_identity", last.get "journal_identity"), ("decision", .str choice), ("safe_mode", .bool away),
    ("rollback_required", .bool away)]

def recoveryDecision (records : List Json) (expected : Dict) : Outcome Json := do
  let validated ← validateJournalTransaction records expected
  pure (decided (validated.getLast?.getD .null))

/-- The choices that may follow a choice. -/
def progressions : List (String × List String) :=
  [("resume", ["resume", "terminal", "rollback_required"]), ("terminal", ["terminal"]), ("rollback_required", ["rollback_required"])]

def validateDecisionProgression (previous : Json) (choice : String) : Outcome Unit := do
  refuseIf (!previous.hasExactly decisionFields) "previous recovery decision is incomplete"
  let known ← among (previous.get "decision") (progressions.map Prod.fst)
  let next := ((progressions.find? (fun row => previous.get "decision" == .str row.1)).map Prod.snd).getD []
  refuseIf (!known || !next.contains choice) "recovery decision is not monotonic"

/-- An identity test against a boolean: no number passes for one. -/
def isFlag (value : Json) (flag : Bool) : Bool :=
  match value with
  | .bool found => found == flag
  | _ => false

def validateRecoveryDecision (decision : Json) (expected : Dict) (previous : Option Json) : Outcome Unit := do
  refuseIf (!decision.hasExactly decisionFields) "recovery decision fields are incomplete"
  refuseIf (decision.get "operation_id" != (expected.find "operation_id").getD (decision.get "operation_id"))
    "recovery decision operation is foreign"
  let revision ← entry expected "state_revision"
  refuseIf (decision.get "state_revision" != revision) "recovery decision revision is stale"
  let identity ← entry expected "journal_identity"
  refuseIf (decision.get "journal_identity" != identity) "recovery decision identity is foreign"
  let known ← among (decision.get "decision") ["resume", "terminal", "rollback_required"]
  refuseIf (!known) "recovery decision is invalid"
  let choice := (decision.get "decision").text
  refuseIf (!isFlag (decision.get "safe_mode") (choice == "rollback_required")) "recovery decision safe-mode flag is inconsistent"
  refuseIf (!isFlag (decision.get "rollback_required") (choice == "rollback_required"))
    "recovery decision rollback flag is inconsistent"
  match previous with
  | none => pure ()
  | some prior => validateDecisionProgression prior choice

/-! What a transaction validator accepts. -/

/-- A record that a transaction may hold, for an expected identity. -/
structure Captured (expected : Dict) (record : Json) : Prop where
  state : ∃ word ∈ ["captured", "terminal", "rollback_required"], record.get "state" = .str word
  revision : ∃ revision, expected.find "state_revision" = some revision ∧ (record.get "state_revision" == revision) = true
  identity : ∃ identity, expected.find "journal_identity" = some identity ∧ (record.get "journal_identity" == identity) = true

theorem refuseIf_eq_ok {bad : Bool} {message : String} : refuseIf bad message = .ok () ↔ bad = false := raiseIf_eq_ok

theorem among_eq_true {value : Json} {names : List String} (listed : among value names = .ok true) :
    ∃ word ∈ names, value = .str word := by
  have member : names.any (fun name => value == .str name) = true := by
    cases value with
    | arr items => cases listed
    | obj fields => cases listed
    | _ => exact Except.ok.inj listed
  obtain ⟨word, known, same⟩ := List.any_eq_true.mp member
  exact ⟨word, known, (beq_str _ _).mp same⟩

theorem entry_eq_ok {fields : Dict} {key : String} {value : Json} : entry fields key = .ok value ↔ fields.find key = some value :=
  orRaise_eq_ok

variable {expected : Dict} {record result : Json}

theorem captured_of_valid {sequence : Nat} (valid : validateTransactionRecord record expected sequence = .ok result) :
    result = record ∧ Captured expected record := by
  simp only [validateTransactionRecord, bind_eq_ok, exists_unit, refuseIf_eq_ok, entry_eq_ok, pure_eq_ok, bne, Bool.not_eq_false',
    Bool.or_eq_false_iff] at valid
  obtain ⟨-, -, intent, -, -, state, known, listed, revision, stated, fresh, identity, named, own, certain, -, same⟩ := valid
  rw [listed] at known
  obtain ⟨word, member, spelled⟩ := among_eq_true known
  refine ⟨same.symm, ⟨word, ?_, spelled⟩, ⟨revision, stated, fresh⟩, ⟨identity, named, own⟩⟩
  have other : word ≠ "ambiguous" := by
    intro ambiguous
    rw [spelled, ambiguous] at certain
    exact absurd certain.1 (by decide)
  simp only [List.mem_cons, List.not_mem_nil, or_false] at member ⊢
  exact member.elim .inl fun member => member.elim (fun terminal => .inr (.inl terminal)) fun member =>
    member.elim (fun away => .inr (.inr away)) fun ambiguous => absurd ambiguous other

/-- A validated transaction is what it was, and none of its records stands behind a terminal one. -/
theorem validateFrom_eq_ok {records later : List Json} {place : Nat} {seen : Bool}
    (valid : validateFrom expected place seen records = .ok later) :
    later = records ∧ (∀ record ∈ records, Captured expected record) ∧ (seen = true → records = []) ∧
      ∀ before record after, records = before ++ record :: after → after ≠ [] → record.get "state" ≠ .str "terminal" := by
  induction records generalizing place seen later with
  | nil =>
    rw [validateFrom, pure_eq_ok] at valid
    refine ⟨valid.symm, List.forall_mem_nil _, fun _ => rfl, fun before record after split => ?_⟩
    cases before <;> cases split
  | cons first rest ih =>
    simp only [validateFrom, bind_eq_ok, exists_unit, refuseIf_eq_ok, pure_eq_ok] at valid
    obtain ⟨current, checked, open_, others, further, same⟩ := valid
    obtain ⟨rfl, captured⟩ := captured_of_valid checked
    obtain ⟨rfl, each, closed, continued⟩ := ih further
    refine ⟨same.symm, List.forall_mem_cons.mpr ⟨captured, each⟩, fun terminal => ?_, ?_⟩
    · rw [terminal] at open_
      cases open_
    · intro before record after split more
      cases before with
      | nil =>
        rw [List.nil_append, List.cons.injEq] at split
        obtain ⟨rfl, rfl⟩ := split
        intro terminal
        apply more
        apply closed
        rw [terminal]
        exact (beq_str _ _).mpr rfl
      | cons other before =>
        rw [List.cons_append, List.cons.injEq] at split
        exact continued before record after split.2 more

/-! Decisions along a transaction. -/

/-- The decision for one record may follow the one for an earlier record: a rollback stays required, the operation stays the same,
and it is the expected one where the identity names one. -/
structure Forward (expected : Dict) (earlier later : Json) : Prop where
  stays : earlier.get "state" = .str "rollback_required" → later.get "state" = .str "rollback_required"
  operation : (later.get "operation_id" == earlier.get "operation_id") = true
  own : (later.get "operation_id" == (expected.find "operation_id").getD (later.get "operation_id")) = true

/-- What the decisions of a transaction and of a longer one have to satisfy. -/
def Consistent (expected : Dict) (records longer : List Json) : Prop :=
  ∃ previous decision, recoveryDecision records expected = .ok previous ∧ recoveryDecision longer expected = .ok decision ∧
    validateRecoveryDecision decision expected (some previous) = .ok () ∧
      (decision.get "operation_id" == previous.get "operation_id") = true

theorem recoveryDecision_eq_ok {records validated : List Json} (valid : validateJournalTransaction records expected = .ok validated) :
    recoveryDecision records expected = .ok (decided (records.getLast?.getD .null)) := by
  have same := valid
  simp only [validateJournalTransaction, bind_eq_ok, exists_unit] at same
  rw [(validateFrom_eq_ok same.2).1] at valid
  rw [recoveryDecision, valid]
  rfl

/-- The choice for a captured record. -/
theorem decided_choice (captured : Captured expected record) :
    record.get "state" = .str "captured" ∧ (decided record).get "decision" = .str "resume" ∨
      record.get "state" = .str "terminal" ∧ (decided record).get "decision" = .str "terminal" ∨
      record.get "state" = .str "rollback_required" ∧ (decided record).get "decision" = .str "rollback_required" := by
  obtain ⟨word, member, spelled⟩ := captured.state
  simp only [List.mem_cons, List.not_mem_nil, or_false] at member
  obtain rfl | rfl | rfl := member
  · refine .inl ⟨spelled, ?_⟩
    simp only [decided, spelled, str_beq_str]
    rfl
  · refine .inr (.inl ⟨spelled, ?_⟩)
    simp only [decided, spelled, str_beq_str]
    rfl
  · refine .inr (.inr ⟨spelled, ?_⟩)
    simp only [decided, spelled, str_beq_str]
    rfl

theorem hasExactly_decided (last : Json) : (decided last).hasExactly decisionFields = true := rfl

theorem decided_revision (last : Json) : (decided last).get "state_revision" = last.get "state_revision" := rfl

theorem decided_identity (last : Json) : (decided last).get "journal_identity" = last.get "journal_identity" := rfl

theorem decided_operation (last : Json) : (decided last).get "operation_id" = last.get "operation_id" := rfl

theorem decided_flags (last : Json) (field : String) (flag : field = "safe_mode" ∨ field = "rollback_required") :
    (decided last).get field = .bool (((decided last).get "decision").text == "rollback_required") := by
  obtain rfl | rfl := flag <;> rfl

/-- A captured record's decision passes every check but that of its operation and of the decision before it. -/
theorem validateDecision_own {after previous : Json} (last : Captured expected after) :
    validateRecoveryDecision (decided after) expected (some previous) = .ok () ↔
      (after.get "operation_id" == (expected.find "operation_id").getD (after.get "operation_id")) = true ∧
        validateDecisionProgression previous ((decided after).get "decision").text = .ok () := by
  obtain ⟨revision, stated, fresh⟩ := last.revision
  obtain ⟨identity, named, own⟩ := last.identity
  have known : among ((decided after).get "decision") ["resume", "terminal", "rollback_required"] = .ok true := by
    obtain ⟨-, choice⟩ | ⟨-, choice⟩ | ⟨-, choice⟩ := decided_choice last
    · rw [choice]; rfl
    · rw [choice]; rfl
    · rw [choice]; rfl
  have flags (field : String) (flag : field = "safe_mode" ∨ field = "rollback_required") :
      isFlag ((decided after).get field) (((decided after).get "decision").text == "rollback_required") = true := by
    rw [decided_flags after field flag, isFlag, beq_self_eq_true]
  simp only [validateRecoveryDecision, hasExactly_decided, decided_operation, decided_revision, decided_identity, known,
    flags "safe_mode" (.inl rfl), flags "rollback_required" (.inr rfl), bind_eq_ok, exists_unit, refuseIf_eq_ok, entry_eq_ok, bne,
    Bool.not_true, Bool.not_eq_false', Except.ok.injEq, true_and]
  constructor
  · rintro ⟨operation, _, -, -, _, -, -, _, -, -, progression⟩
    exact ⟨operation, progression⟩
  · rintro ⟨operation, progression⟩
    exact ⟨operation, revision, stated, fresh, identity, named, own, true, rfl, rfl, progression⟩

/-- A rollback stays required, and anything may follow a resumption. -/
theorem progression_iff {before after : Json} (first : Captured expected before) (last : Captured expected after)
    (continued : before.get "state" ≠ .str "terminal") :
    validateDecisionProgression (decided before) ((decided after).get "decision").text = .ok () ↔
      (before.get "state" = .str "rollback_required" → after.get "state" = .str "rollback_required") := by
  have differ {first second : String} (other : first ≠ second) : Json.str first ≠ .str second := fun same => other (Json.str.inj same)
  obtain ⟨state, choice⟩ | ⟨state, -⟩ | ⟨state, choice⟩ := decided_choice first
  · refine iff_of_true ?_ fun away => absurd (state.symm.trans away) (differ (by decide))
    rw [validateDecisionProgression, hasExactly_decided, choice]
    obtain ⟨-, next⟩ | ⟨-, next⟩ | ⟨-, next⟩ := decided_choice last
    · rw [next]; rfl
    · rw [next]; rfl
    · rw [next]; rfl
  · exact absurd state continued
  · rw [validateDecisionProgression, hasExactly_decided, choice]
    obtain ⟨other, next⟩ | ⟨other, next⟩ | ⟨same, next⟩ := decided_choice last
    · refine iff_of_false ?_ fun stays => absurd (other.symm.trans (stays state)) (differ (by decide))
      rw [next]
      intro never
      cases never
    · refine iff_of_false ?_ fun stays => absurd (other.symm.trans (stays state)) (differ (by decide))
      rw [next]
      intro never
      cases never
    · refine iff_of_true ?_ fun _ => same
      rw [next]
      rfl

/-- A transaction that goes on from a captured one goes on from records of which none is terminal. -/
theorem last_of_append {records more : List Json} {validated : List Json}
    (valid : validateJournalTransaction (records ++ more) expected = .ok validated) (some_ : records ≠ []) (longer : more ≠ []) :
    ∃ before after, records.getLast? = some before ∧ (records ++ more).getLast? = some after ∧ Captured expected before ∧
      Captured expected after ∧ before.get "state" ≠ .str "terminal" := by
  simp only [validateJournalTransaction, bind_eq_ok, exists_unit] at valid
  obtain ⟨-, captured, -, continued⟩ := validateFrom_eq_ok valid.2
  refine ⟨records.getLast some_, more.getLast longer, List.getLast?_eq_some_getLast some_, ?_, ?_, ?_, ?_⟩
  · rw [List.getLast?_append_of_ne_nil _ longer]
    exact List.getLast?_eq_some_getLast longer
  · exact captured _ (List.mem_append_left _ (List.getLast_mem some_))
  · exact captured _ (List.mem_append_right _ (List.getLast_mem longer))
  · apply continued records.dropLast _ more ?_ longer
    rw [← List.singleton_append, ← List.append_assoc, List.dropLast_append_getLast some_]

/-- The decisions along a transaction are consistent exactly when the last record of the longer one goes forward from the last
record of the shorter one. -/
theorem decisions_consistent_iff {records more shorter longer : List Json}
    (first : validateJournalTransaction records expected = .ok shorter)
    (second : validateJournalTransaction (records ++ more) expected = .ok longer) (extended : more ≠ []) :
    Consistent expected records (records ++ more) ↔
      Forward expected (records.getLast?.getD .null) ((records ++ more).getLast?.getD .null) := by
  have some_ : records ≠ [] := by
    rintro rfl
    cases first
  obtain ⟨before, after, last, final, captured, later, continued⟩ := last_of_append second some_ extended
  rw [Consistent, recoveryDecision_eq_ok first, recoveryDecision_eq_ok second, last, final]
  simp only [Option.getD_some]
  constructor
  · rintro ⟨previous, decision, same, made, accepted, operation⟩
    cases same
    cases made
    obtain ⟨own, progression⟩ := (validateDecision_own later).mp accepted
    exact ⟨(progression_iff captured later continued).mp progression, operation, own⟩
  · intro forward
    have progression := (progression_iff captured later continued).mpr forward.stays
    exact ⟨_, _, rfl, rfl, (validateDecision_own later).mpr ⟨forward.own, progression⟩, forward.operation⟩

def session : Dict := [("state_revision", .int 3), ("journal_identity", .str "journal-1")]

def observed (sequence : Nat) (state : String) : Json :=
  .obj [("operation_id", .str "upgrade-1"), ("sequence", .int sequence), ("intent", .str "append"), ("state", .str state),
    ("state_revision", .int 3), ("journal_identity", .str "journal-1"), ("fsync", .str "durable")]

theorem resumed_terminal_consistent : Consistent session [observed 0 "captured"] ([observed 0 "captured"] ++ [observed 1 "terminal"]) := by
  apply (decisions_consistent_iff (show validateJournalTransaction _ session = .ok [observed 0 "captured"] from rfl)
    (show validateJournalTransaction _ session = .ok [observed 0 "captured", observed 1 "terminal"] from rfl) (List.cons_ne_nil _ _)).mpr
  refine ⟨fun away => ?_, rfl, rfl⟩
  have word := Json.str.inj away
  exact absurd word (by decide)

/-- Behind a required rollback a transaction goes on, and its decision is to resume. -/
theorem rollback_resumed : (∃ shorter, validateJournalTransaction [observed 0 "rollback_required"] session = .ok shorter) ∧
    (∃ longer, validateJournalTransaction [observed 0 "rollback_required", observed 1 "captured"] session = .ok longer) ∧
      ¬Consistent session [observed 0 "rollback_required"] [observed 0 "rollback_required", observed 1 "captured"] := by
  refine ⟨⟨_, rfl⟩, ⟨_, rfl⟩, ?_⟩
  rintro ⟨previous, decision, same, made, accepted, -⟩
  cases same
  cases made
  cases accepted

end Coordinator.SessionContract
