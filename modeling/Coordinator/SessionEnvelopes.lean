import Coordinator.Kit.Bytes
import Coordinator.Kit.JsonOrder
import Coordinator.SessionContract

/-! The envelopes in which journal records and recovery outcomes of a session travel as bytes. -/

namespace Coordinator.SessionContract
open Kit Json JsonText

/-! Records and outcomes. -/

def identityFields : List String :=
  ["authority_identity", "control_store_identity", "control_lock_identity", "journal_identity", "journal_bytes", "barrier_id",
    "fencing_owner", "fencing_token", "state_revision"]

def journalFields : List String := ["operation_id", "state_revision", "journal_identity", "status", "fsync"]

def validateJournalRecord (record : Json) (expected : Dict) : Outcome Unit := do
  refuseIf (!record.hasExactly journalFields) "journal record fields are incomplete"
  refuseIf (!(Json.obj expected).hasExactly identityFields) "expected session fields are incomplete"
  refuseIf (!(record.get "operation_id").isStr || (record.get "operation_id").text == "") "journal operation is invalid"
  let revision ← entry expected "state_revision"
  refuseIf (record.get "state_revision" != revision) "journal revision is stale"
  let identity ← entry expected "journal_identity"
  refuseIf (record.get "journal_identity" != identity) "journal identity is foreign"
  let status ← among (record.get "status") ["captured", "ambiguous"]
  refuseIf (!status) "journal status is invalid"
  let fsync ← among (record.get "fsync") ["durable", "uncertain"]
  refuseIf (!fsync) "journal fsync value is invalid"
  refuseIf (!(record.get "status" == .str "captured" && record.get "fsync" == .str "durable" ||
    record.get "status" == .str "ambiguous" && record.get "fsync" == .str "uncertain")) "journal durability is ambiguous"

def outcomeFields : List String := ["operation_id", "state_revision", "journal_identity", "outcome", "decision"]

def validateRecoveryOutcome (outcome decision : Json) (expected : Dict) : Outcome Unit := do
  refuseIf (!outcome.hasExactly outcomeFields) "recovery outcome fields are incomplete"
  validateRecoveryDecision decision expected none
  refuseIf (outcome.get "operation_id" != decision.get "operation_id") "recovery outcome operation is foreign"
  refuseIf (outcome.get "state_revision" != decision.get "state_revision") "recovery outcome revision is stale"
  refuseIf (outcome.get "journal_identity" != decision.get "journal_identity") "recovery outcome identity is foreign"
  let known ← among (outcome.get "outcome") ["success", "rejected", "ambiguous"]
  refuseIf (!known) "recovery outcome is invalid"
  refuseIf (outcome.get "decision" != decision.get "decision") "recovery outcome decision is inconsistent"
  refuseIf (outcome.get "outcome" == .str "success" && decision.get "decision" != .str "terminal")
    "successful outcome requires terminal decision"
  refuseIf (outcome.get "outcome" == .str "ambiguous" && decision.get "decision" != .str "rollback_required")
    "ambiguous outcome requires rollback decision"

/-! Envelopes. -/

/-- An envelope of one kind around its parts. -/
def envelope (kind : String) (parts : Dict) : Json := .obj (parts ++ [("kind", .str kind), ("schema_version", .int 1)])

def envelopeBytes (kind : String) (parts : Dict) : List UInt8 := Bytes.bytesOf (canonical (envelope kind parts))

variable (shortest : Shortest)

/-- The envelope that bytes stand for; `label` says in its faults what the envelope is of. -/
def openEnvelope (label kind : String) (names : List String) (payload : List UInt8) : Outcome Json := do
  let text ← orRaise (Bytes.textOf payload) (.contractError (label ++ " envelope is malformed"))
  let found ← orRaise (loads shortest text) (.contractError (label ++ " envelope is malformed"))
  refuseIf (!found.hasExactly (names ++ ["kind", "schema_version"])) (label ++ " envelope fields are invalid")
  refuseIf (found.get "schema_version" != .int 1 || found.get "kind" != .str kind) (label ++ " envelope schema is invalid")
  pure found

def serializeJournalRecord (record : Json) (expected : Dict) : Outcome (List UInt8) := do
  validateJournalRecord record expected
  pure (envelopeBytes "durable-journal-record" [("record", record)])

def deserializeJournalRecord (payload : List UInt8) (expected : Dict) : Outcome Json := do
  let found ← openEnvelope shortest "journal" "durable-journal-record" ["record"] payload
  refuseIf (!(found.get "record").isObj) "journal envelope record is invalid"
  validateJournalRecord (found.get "record") expected
  pure (found.get "record")

def serializeRecoveryOutcome (outcome decision : Json) (expected : Dict) : Outcome (List UInt8) := do
  validateRecoveryOutcome outcome decision expected
  pure (envelopeBytes "durable-recovery-outcome" [("decision", decision), ("outcome", outcome)])

def deserializeRecoveryOutcome (payload : List UInt8) (expected : Dict) : Outcome (Json × Json) := do
  let found ← openEnvelope shortest "recovery" "durable-recovery-outcome" ["decision", "outcome"] payload
  refuseIf (!(found.get "decision").isObj || !(found.get "outcome").isObj) "recovery envelope records are invalid"
  validateRecoveryOutcome (found.get "outcome") (found.get "decision") expected
  pure (found.get "outcome", found.get "decision")

/-- Bytes are the compact text of the document that they are read as, with an integer for the version. -/
def Canonical (payload : List UInt8) : Prop :=
  ∃ document, (Bytes.textOf payload).bind (loads shortest) = some document ∧ Bytes.bytesOf (canonical document) = payload ∧
    document.get "schema_version" = .int 1

variable {shortest} {kind label : String} {parts : Dict} {names : List String} {payload : List UInt8} {found : Json}

/-- The text of a document is ASCII, and so are the blanks that may stand behind it. -/
theorem textOf_canonical (document : Json) {blanks : List Char} (each : ∀ c ∈ blanks, isBlank c = true) :
    Bytes.textOf (Bytes.bytesOf (canonical document ++ blanks)) = some (canonical document ++ blanks) := by
  apply Bytes.textOf_bytesOf
  intro c member
  obtain inside | behind := List.mem_append.mp member
  · have plain := printable_canonical document c inside
    rw [printable, Bool.and_eq_true, decide_eq_true_eq, decide_eq_true_eq] at plain
    omega
  · have blank := each c behind
    simp only [isBlank, Bool.or_eq_true, beq_iff_eq] at blank
    obtain ((rfl | rfl) | rfl) | rfl := blank <;> decide

theorem bytes_canonical (document : Json) : Bytes.textOf (Bytes.bytesOf (canonical document)) = some (canonical document) := by
  have text := textOf_canonical document (List.forall_mem_nil _)
  rwa [List.append_nil] at text

/-- What the text of a document is read as, whatever blanks stand behind it. -/
theorem read_blanks {document : Json} (regular : Regular shortest document) {blanks : List Char} (each : ∀ c ∈ blanks, isBlank c = true) :
    (Bytes.textOf (Bytes.bytesOf (canonical document ++ blanks))).bind (loads shortest) = some (sortKeys document) := by
  rw [textOf_canonical document each, Option.bind_some, loads_prints_blanks prints_canonical regular each]

theorem read_canonical {document : Json} (regular : Regular shortest document) :
    (Bytes.textOf (Bytes.bytesOf (canonical document))).bind (loads shortest) = some (sortKeys document) := by
  rw [bytes_canonical, Option.bind_some, loads_prints prints_canonical regular]

/-- Documents that are the same but for the order of their members have one text. -/
theorem canonical_congr {first second : Json} (same : sortKeys first = sortKeys second) : canonical first = canonical second := by
  rw [prints_pretty prints_canonical first 0, prints_pretty prints_canonical second 0, same]

theorem openEnvelope_eq_ok : openEnvelope shortest label kind names payload = .ok found ↔
    (Bytes.textOf payload).bind (loads shortest) = some found ∧ found.hasExactly (names ++ ["kind", "schema_version"]) = true ∧
      (found.get "schema_version" == .int 1) = true ∧ found.get "kind" = .str kind := by
  simp only [openEnvelope, bind_eq_ok, exists_unit, refuseIf_eq_ok, orRaise_eq_ok, pure_eq_ok, Bool.not_eq_false', bne,
    Bool.or_eq_false_iff, beq_str]
  constructor
  · rintro ⟨text, read, document, loaded, exactly, ⟨version, name⟩, rfl⟩
    exact ⟨by rw [read, Option.bind_some, loaded], exactly, version, name⟩
  · rintro ⟨read, exactly, version, name⟩
    obtain ⟨text, read, loaded⟩ := Option.bind_eq_some_iff.mp read
    exact ⟨text, read, found, loaded, exactly, ⟨version, name⟩, rfl⟩

/-- The parts of an envelope: its fields but the kind and the version. -/
structure Parts (names : List String) (parts : Dict) : Prop where
  keys : Dict.keys parts = names
  distinct : (names ++ ["kind", "schema_version"]).Nodup

theorem keys_envelope (kind : String) (own : Parts names parts) :
    Dict.keys (parts ++ [("kind", .str kind), ("schema_version", .int 1)]) = names ++ ["kind", "schema_version"] := by
  rw [Dict.keys, List.map_append, ← own.keys]
  rfl

theorem regular_envelope (kind : String) (own : Parts names parts) (regular : ∀ entry ∈ parts, Regular shortest entry.2) :
    Regular shortest (envelope kind parts) := by
  refine ⟨?_, regularMembers_iff.mpr (List.forall_mem_append.mpr ⟨regular, ?_⟩)⟩
  · rw [keys_envelope kind own]
    exact own.distinct
  · exact List.forall_mem_cons.mpr ⟨trivial, List.forall_mem_cons.mpr ⟨trivial, List.forall_mem_nil _⟩⟩

/-- What is found in an envelope under each of its keys. -/
theorem get_envelope (kind : String) (own : Parts names parts) {key : String} {value : Json}
    (inside : (key, value) ∈ parts ++ [("kind", .str kind), ("schema_version", .int 1)]) : (envelope kind parts).get key = value := by
  have distinct : (Dict.keys (parts ++ [("kind", .str kind), ("schema_version", .int 1)])).Nodup := by
    rw [keys_envelope kind own]
    exact own.distinct
  change (Dict.find key (parts ++ [("kind", .str kind), ("schema_version", .int 1)])).getD .null = value
  rw [find_of_mem distinct inside, Option.getD_some]

theorem hasExactly_envelope (kind : String) (own : Parts names parts) :
    (envelope kind parts).hasExactly (names ++ ["kind", "schema_version"]) = true := by
  have keys := keys_envelope kind own
  rw [envelope, hasExactly, isObj, Bool.true_and, Bool.and_eq_true, List.all_eq_true, List.all_eq_true]
  constructor
  · intro name listed
    rw [← keys] at listed
    exact (Dict.mem_keys_iff_has _ _).mp listed
  · intro name listed
    rw [List.contains_iff_mem, ← keys]
    exact listed

/-- The bytes of an envelope are opened as the envelope, whatever blanks stand behind them. -/
theorem openEnvelope_read (own : Parts names parts) (regular : ∀ entry ∈ parts, Regular shortest entry.2)
    (read : (Bytes.textOf payload).bind (loads shortest) = some (sortKeys (envelope kind parts))) :
    openEnvelope shortest label kind names payload = .ok (sortKeys (envelope kind parts)) := by
  have whole := regular_envelope kind own regular
  have version : (envelope kind parts).get "schema_version" = .int 1 := get_envelope kind own (by simp)
  have name : (envelope kind parts).get "kind" = .str kind := get_envelope kind own (by simp)
  refine openEnvelope_eq_ok.mpr ⟨read, ?_, ?_, ?_⟩
  · rw [hasExactly_sortKeys whole]
    exact hasExactly_envelope kind own
  · rw [get_sorted whole, version]
    exact (beq_int_int 1 1).mpr rfl
  · rw [get_sorted whole, name]
    rfl

theorem openEnvelope_bytes (own : Parts names parts) (regular : ∀ entry ∈ parts, Regular shortest entry.2) :
    openEnvelope shortest label kind names (envelopeBytes kind parts) = .ok (sortKeys (envelope kind parts)) :=
  openEnvelope_read own regular (read_canonical (regular_envelope kind own regular))

/-- The parts of an envelope, as they are found in it. -/
def partsOf (names : List String) (found : Json) : Dict := names.map (fun name => (name, found.get name))

theorem parts_partsOf (distinct : (names ++ ["kind", "schema_version"]).Nodup) (found : Json) : Parts names (partsOf names found) where
  keys := by
    rw [partsOf, Dict.keys, List.map_map]
    exact List.map_id _
  distinct := distinct

/-- Bytes that are opened are the ones of the envelope that they are opened as exactly when they are canonical. -/
theorem envelopeBytes_iff (faithful : Faithful shortest) (distinct : (names ++ ["kind", "schema_version"]).Nodup)
    (opened : openEnvelope shortest label kind names payload = .ok found) :
    envelopeBytes kind (partsOf names found) = payload ↔ Canonical shortest payload := by
  obtain ⟨read, exactly, -, name⟩ := openEnvelope_eq_ok.mp opened
  have own := parts_partsOf distinct found
  obtain ⟨text, -, loaded⟩ := Option.bind_eq_some_iff.mp read
  have regular := regular_loads faithful loaded
  have each : ∀ entry ∈ partsOf names found, Regular shortest entry.2 := by
    intro entry member
    obtain ⟨field, -, rfl⟩ := List.mem_map.mp member
    exact regular_get regular field
  have whole := regular_envelope kind own each
  have version : (envelope kind (partsOf names found)).get "schema_version" = .int 1 := get_envelope kind own (by simp)
  constructor
  · intro same
    have again := read_canonical whole
    change (Bytes.textOf (envelopeBytes kind (partsOf names found))).bind (loads shortest) = _ at again
    rw [same, read, Option.some.injEq] at again
    have sorted : sortKeys found = sortKeys (envelope kind (partsOf names found)) := (congrArg sortKeys again).trans (sortKeys_sortKeys _)
    have stated := congrArg (fun document => document.get "schema_version") again
    rw [get_sorted whole, version] at stated
    refine ⟨found, read, ?_, stated⟩
    rw [canonical_congr sorted]
    exact same
  · rintro ⟨document, again, bytes, stated⟩
    rw [read, Option.some.injEq] at again
    subst again
    rw [← bytes, envelopeBytes]
    apply congrArg Bytes.bytesOf
    apply canonical_congr
    cases found with
    | obj fields =>
      apply sortKeys_ext whole.1 regular.1
      intro key
      rw [find_of_exact (hasExactly_envelope kind own), find_of_exact exactly]
      by_cases known : key ∈ names ++ ["kind", "schema_version"]
      · rw [if_pos known, if_pos known]
        refine congrArg (Option.map sortKeys) (congrArg some ?_)
        change (envelope kind (partsOf names (.obj fields))).get key = (Json.obj fields).get key
        obtain listed | own_ := List.mem_append.mp known
        · exact get_envelope kind own (List.mem_append_left _ (List.mem_map.mpr ⟨key, listed, rfl⟩))
        · rw [List.mem_cons, List.mem_singleton] at own_
          obtain rfl | rfl := own_
          · rw [name]
            exact get_envelope kind own (by simp)
          · rw [stated]
            exact version
      · rw [if_neg known, if_neg known]
    | _ => cases exactly

/-! Validation does not see the order of members. -/

theorem among_sortKeys (value : Json) (names : List String) : among (sortKeys value) names = among value names := by
  cases value <;> rfl

theorem isFlag_sortKeys (value : Json) (flag : Bool) : isFlag (sortKeys value) flag = isFlag value flag := by
  cases value <;> rfl

variable {expected : Dict} {record outcome decision : Json}

theorem validateJournalRecord_sortKeys (regular : Regular shortest record) :
    validateJournalRecord (sortKeys record) expected = validateJournalRecord record expected := by
  simp only [validateJournalRecord, hasExactly_sortKeys regular, get_sorted regular, isStr_sortKeys, text_sortKeys, among_sortKeys, bne,
    sortKeys_beq]

theorem validateRecoveryDecision_sortKeys (regular : Regular shortest decision) :
    validateRecoveryDecision (sortKeys decision) expected none = validateRecoveryDecision decision expected none := by
  have operation : (sortKeys (decision.get "operation_id") == (expected.find "operation_id").getD (sortKeys (decision.get "operation_id"))) =
      (decision.get "operation_id" == (expected.find "operation_id").getD (decision.get "operation_id")) := by
    cases expected.find "operation_id" with
    | none => rw [Option.getD_none, Option.getD_none, sortKeys_beq, beq_sortKeys (regular_get regular "operation_id")]
    | some named => rw [Option.getD_some, Option.getD_some, sortKeys_beq]
  simp only [validateRecoveryDecision, hasExactly_sortKeys regular, get_sorted regular, text_sortKeys, among_sortKeys, isFlag_sortKeys, bne,
    operation, sortKeys_beq]

theorem validateRecoveryOutcome_sortKeys (regular : Regular shortest outcome) (regularDecision : Regular shortest decision) :
    validateRecoveryOutcome (sortKeys outcome) (sortKeys decision) expected = validateRecoveryOutcome outcome decision expected := by
  have both (field : String) : (outcome.get field == sortKeys (decision.get field)) = (outcome.get field == decision.get field) :=
    beq_sortKeys (regular_get regularDecision field) _
  simp only [validateRecoveryOutcome, hasExactly_sortKeys regular, get_sorted regular, get_sorted regularDecision, among_sortKeys, bne,
    validateRecoveryDecision_sortKeys regularDecision, sortKeys_beq, both]

/-! Round trips. -/

theorem isObj_of_exact {value : Json} (exactly : value.hasExactly names = true) : value.isObj = true := by
  cases value with
  | obj fields => rfl
  | _ => cases exactly

/-- A valid journal record is read back from its bytes. -/
theorem journal_read_back (regular : Regular shortest record) (valid : validateJournalRecord record expected = .ok ()) :
    ∃ payload found, serializeJournalRecord record expected = .ok payload ∧
      deserializeJournalRecord shortest payload expected = .ok found ∧ Same found record := by
  have own : Parts ["record"] [("record", record)] := ⟨rfl, by decide⟩
  have each : ∀ entry ∈ [("record", record)], Regular shortest entry.2 := List.forall_mem_singleton.mpr regular
  have opened := @openEnvelope_bytes _ "durable-journal-record" "journal" _ _ own each
  have whole := regular_envelope "durable-journal-record" own each
  have inside : (envelope "durable-journal-record" [("record", record)]).get "record" = record := get_envelope _ own (by simp)
  have object : record.isObj = true := by
    have checked := valid
    simp only [validateJournalRecord, bind_eq_ok, exists_unit, refuseIf_eq_ok, Bool.not_eq_false'] at checked
    exact isObj_of_exact checked.1
  refine ⟨_, sortKeys record, by rw [serializeJournalRecord, valid]; rfl, ?_, same_sortKeys record⟩
  rw [deserializeJournalRecord, opened]
  simp only [ok_bind, get_sorted whole, inside, isObj_sortKeys, object, validateJournalRecord_sortKeys regular, valid]
  rfl

/-- A valid outcome and its decision are read back from their bytes. -/
theorem outcome_read_back (regular : Regular shortest outcome) (regularDecision : Regular shortest decision)
    (valid : validateRecoveryOutcome outcome decision expected = .ok ()) :
    ∃ payload found made, serializeRecoveryOutcome outcome decision expected = .ok payload ∧
      deserializeRecoveryOutcome shortest payload expected = .ok (found, made) ∧ Same found outcome ∧ Same made decision := by
  have own : Parts ["decision", "outcome"] [("decision", decision), ("outcome", outcome)] := ⟨rfl, by decide⟩
  have each : ∀ entry ∈ [("decision", decision), ("outcome", outcome)], Regular shortest entry.2 :=
    List.forall_mem_cons.mpr ⟨regularDecision, List.forall_mem_singleton.mpr regular⟩
  have opened := @openEnvelope_bytes _ "durable-recovery-outcome" "recovery" _ _ own each
  have whole := regular_envelope "durable-recovery-outcome" own each
  have first : (envelope "durable-recovery-outcome" [("decision", decision), ("outcome", outcome)]).get "decision" = decision :=
    get_envelope _ own (by simp)
  have second : (envelope "durable-recovery-outcome" [("decision", decision), ("outcome", outcome)]).get "outcome" = outcome :=
    get_envelope _ own (by simp)
  have objects : outcome.isObj = true ∧ decision.isObj = true := by
    have checked := valid
    simp only [validateRecoveryOutcome, validateRecoveryDecision, bind_eq_ok, exists_unit, refuseIf_eq_ok, Bool.not_eq_false'] at checked
    exact ⟨isObj_of_exact checked.1, isObj_of_exact checked.2.1.1⟩
  refine ⟨_, sortKeys outcome, sortKeys decision, by rw [serializeRecoveryOutcome, valid]; rfl, ?_, same_sortKeys outcome,
    same_sortKeys decision⟩
  rw [deserializeRecoveryOutcome, opened]
  simp only [ok_bind, get_sorted whole, first, second, isObj_sortKeys, objects.1, objects.2,
    validateRecoveryOutcome_sortKeys regular regularDecision, valid]
  rfl

/-! Exactness. -/

/-- Accepted bytes are the serialisation of the record that they are read as exactly when they are canonical. -/
theorem journal_exact (faithful : Faithful shortest) (accepted : deserializeJournalRecord shortest payload expected = .ok record) :
    serializeJournalRecord record expected = .ok payload ↔ Canonical shortest payload := by
  simp only [deserializeJournalRecord, bind_eq_ok, exists_unit, refuseIf_eq_ok, pure_eq_ok] at accepted
  obtain ⟨found, opened, -, valid, rfl⟩ := accepted
  rw [← envelopeBytes_iff faithful (by decide) opened, serializeJournalRecord, valid]
  exact pure_eq_ok

theorem outcome_exact (faithful : Faithful shortest)
    (accepted : deserializeRecoveryOutcome shortest payload expected = .ok (outcome, decision)) :
    serializeRecoveryOutcome outcome decision expected = .ok payload ↔ Canonical shortest payload := by
  simp only [deserializeRecoveryOutcome, bind_eq_ok, exists_unit, refuseIf_eq_ok, pure_eq_ok, Prod.mk.injEq] at accepted
  obtain ⟨found, opened, -, valid, rfl, rfl⟩ := accepted
  rw [← envelopeBytes_iff faithful (by decide) opened, serializeRecoveryOutcome, valid]
  exact pure_eq_ok

/-- Every valid record, and every valid outcome with its decision, is read back from its bytes; and bytes that are accepted are the
serialisation of what they are read as exactly when they are canonical. -/
theorem envelopes_exact_iff (faithful : Faithful shortest) :
    (∀ record expected, Regular shortest record → validateJournalRecord record expected = .ok () →
      ∃ payload found, serializeJournalRecord record expected = .ok payload ∧
        deserializeJournalRecord shortest payload expected = .ok found ∧ Same found record) ∧
    (∀ outcome decision expected, Regular shortest outcome → Regular shortest decision →
      validateRecoveryOutcome outcome decision expected = .ok () →
      ∃ payload found made, serializeRecoveryOutcome outcome decision expected = .ok payload ∧
        deserializeRecoveryOutcome shortest payload expected = .ok (found, made) ∧ Same found outcome ∧ Same made decision) ∧
    (∀ payload expected record, deserializeJournalRecord shortest payload expected = .ok record →
      (serializeJournalRecord record expected = .ok payload ↔ Canonical shortest payload)) ∧
    (∀ payload expected outcome decision, deserializeRecoveryOutcome shortest payload expected = .ok (outcome, decision) →
      (serializeRecoveryOutcome outcome decision expected = .ok payload ↔ Canonical shortest payload)) :=
  ⟨fun _ _ => journal_read_back, fun _ _ _ => outcome_read_back, fun _ _ _ => journal_exact faithful, fun _ _ _ _ => outcome_exact faithful⟩

def captured : Json :=
  .obj [("operation_id", .str "upgrade-1"), ("state_revision", .int 3), ("journal_identity", .str "journal-1"),
    ("status", .str "captured"), ("fsync", .str "durable")]

def identity : Dict :=
  [("authority_identity", .str "authority-1"), ("control_store_identity", .str "store-1"), ("control_lock_identity", .str "lock-1"),
    ("journal_identity", .str "journal-1"), ("journal_bytes", .str "512"), ("barrier_id", .str "barrier-1"),
    ("fencing_owner", .str "owner-1"), ("fencing_token", .str "fence-1"), ("state_revision", .int 3)]

/-- A rounding for documents without floats. -/
def rounded : Shortest := fun _ _ => (0, 0)

theorem faithful_rounded : Faithful rounded := fun _ _ => ⟨fun _ => rfl, fun _ => rfl⟩

theorem regular_captured : Regular rounded captured := ⟨by simp [Dict.keys], trivial, trivial, trivial, trivial, trivial, trivial⟩

theorem captured_read_back : ∃ payload found, serializeJournalRecord captured identity = .ok payload ∧
    deserializeJournalRecord rounded payload identity = .ok found ∧ Same found captured :=
  (envelopes_exact_iff faithful_rounded).1 captured identity regular_captured rfl

/-- The bytes of a record with a blank behind them. -/
def spaced : List UInt8 := Bytes.bytesOf (canonical (envelope "durable-journal-record" [("record", captured)]) ++ [' '])

/-- A second encoding of a record is accepted. -/
theorem spaced_accepted : ∃ found, deserializeJournalRecord rounded spaced identity = .ok found ∧
    serializeJournalRecord found identity ≠ .ok spaced := by
  have own : Parts ["record"] [("record", captured)] := ⟨rfl, by decide⟩
  have each : ∀ entry ∈ [("record", captured)], Regular rounded entry.2 := List.forall_mem_singleton.mpr regular_captured
  have whole := regular_envelope "durable-journal-record" own each
  have blank : ∀ c ∈ [' '], isBlank c = true := all_of rfl
  have inside : (envelope "durable-journal-record" [("record", captured)]).get "record" = captured := get_envelope _ own (by simp)
  have opened := @openEnvelope_read rounded "durable-journal-record" "journal" _ _ spaced own each (read_blanks whole blank)
  have valid : validateJournalRecord (sortKeys captured) identity = .ok () := by
    rw [validateJournalRecord_sortKeys regular_captured]
    rfl
  refine ⟨sortKeys captured, ?_, ?_⟩
  · rw [deserializeJournalRecord, opened]
    simp only [ok_bind, get_sorted whole, inside, valid]
    rfl
  · rw [serializeJournalRecord, valid]
    intro same
    have bytes := pure_eq_ok.mp same
    have text := congrArg Bytes.textOf bytes
    have sorted : sortKeys (envelope "durable-journal-record" [("record", sortKeys captured)]) =
        sortKeys (envelope "durable-journal-record" [("record", captured)]) := by
      simp only [envelope, sortKeys, sortMembers, List.singleton_append, sortKeys_sortKeys]
    rw [envelopeBytes, spaced, bytes_canonical, textOf_canonical _ blank, canonical_congr sorted, Option.some.injEq] at text
    have length := congrArg List.length text
    rw [List.length_append, List.length_singleton] at length
    omega

end Coordinator.SessionContract
