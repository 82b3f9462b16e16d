import Coordinator.UpgradeIdentity

/-! The portable upgrade contract, as the dependency-free runtime validates it: two releases, eight
ordered phases with one set of inputs, the contracts of both backends and the rollback. -/

namespace Coordinator.UpgradeContract
open Kit

abbrev Outcome (α : Type) := Except String α

def refuseIf (bad : Bool) (message : String) : Outcome Unit := raiseIf bad message

def phaseOpcodes : List (String × String) :=
  [("discover", "release.inspect"), ("preflight", "admission.check"), ("quiesce", "barrier.acquire"),
    ("backup", "backend.backup"), ("stage", "runtime.stage"), ("commit", "authority.atomic_replace"),
    ("validate", "runtime.validate"), ("reopen", "barrier.reopen")]

def inputFields : List String :=
  ["backend", "selector_ref", "expected_state_revision", "barrier_id", "fencing_token", "backup_operation_id"]

def rollbackInputFields : List String := inputFields ++ ["target"]

def topFields : List String :=
  ["schema_version", "operation_id", "backend", "from", "to", "preconditions", "phases", "backend_contracts",
    "rollback"]

def releaseFields : List String :=
  ["version", "source_commit", "tag_ref", "tag_object", "trust_policy_sha256", "vendor_manifest_sha256"]

def optionalReleaseFields : List String := ["signature_sha256"]

def operationFields : List String :=
  ["operation_id", "opcode", "inputs", "timeout_seconds", "resources", "preconditions", "postconditions", "evidence",
    "durable_record"]

def isOperationTail (c : Char) : Bool := Upgrade.isTokenChar c || c == ':'

def isOperationId (s : String) : Bool := Text.shape Text.isAlnum isOperationTail 0 127 s

/-- Components of letters, digits, points, underscores and hyphens that never lead upwards. -/
def isSelector (s : String) : Bool :=
  !Text.hasPrefix "/" s && !(Text.splitOn '/' s).contains ".." &&
    s.toList.all (fun c => Upgrade.isTokenChar c || c == '/') && 1 ≤ s.length && s.length ≤ 255

def isVersion (s : String) : Bool :=
  match s.toList with
  | 'v' :: numbers =>
      (numbers.splitOn '.').length == 3 && (numbers.splitOn '.').all (fun digits => !digits.isEmpty && digits.all Text.isDigit)
  | _ => false

def isCheckHead (c : Char) : Bool := Text.isDigit c || ('A' ≤ c && c ≤ 'Z')
def isCheckTail (c : Char) : Bool := isCheckHead c || "._:-".toList.contains c
def isCheckId (s : String) : Bool := Text.shape isCheckHead isCheckTail 1 127 s

def isCommit (s : String) : Bool := Text.hexText 40 s
def isDigest (s : String) : Bool := Text.hexText 64 s

def mapping (value : Json) (names : List String) (label : String) : Outcome Unit :=
  refuseIf (!value.hasExactly names) (label ++ " fields are invalid")

def matching (value : Json) (pattern : String → Bool) (label : String) : Outcome Unit :=
  refuseIf (!value.isStr || !pattern value.text) (label ++ " is invalid")

def choice (value : Json) (choices : List String) (label : String) : Outcome Unit :=
  refuseIf (!value.isStr || !choices.contains value.text) (label ++ " is invalid")

def stringList (value : Json) (label : String) (allowEmpty : Bool) : Outcome Unit :=
  refuseIf (!value.isArr || (value.items.isEmpty && !allowEmpty) || value.items.any (fun item => !item.isStr) ||
    !decide (value.items.map Json.text).Nodup) (label ++ " is invalid")

def uniqueObjects (values : List Json) (label : String) : Outcome Unit :=
  refuseIf (!decide (values.map Json.canonical).Nodup) (label ++ " contains duplicates")

def release (value : Json) (label : String) : Outcome Unit := do
  refuseIf (!value.hasExactly releaseFields && !value.hasExactly (releaseFields ++ optionalReleaseFields))
    (label ++ " fields are invalid")
  matching (value.get "version") isVersion (label ++ " version")
  matching (value.get "source_commit") isCommit (label ++ " source commit")
  matching (value.get "tag_object") isCommit (label ++ " tag object")
  refuseIf (value.get "tag_ref" != .str ("refs/tags/" ++ (value.get "version").text)) (label ++ " tag reference is invalid")
  ["trust_policy_sha256", "vendor_manifest_sha256"].forM fun field =>
    matching (value.get field) isDigest (label ++ " " ++ field)
  if value.has "signature_sha256" then matching (value.get "signature_sha256") isDigest (label ++ " signature digest")
  else pure ()

def check (value : Json) : Outcome Unit := do
  mapping value ["id", "effect", "failure_mode", "preconditions", "postconditions", "evidence"] "contract precondition"
  matching (value.get "id") isCheckId "precondition ID"
  choice (value.get "effect") ["read-only", "quiesce", "backup", "replace", "validate", "reopen"] "precondition effect"
  choice (value.get "failure_mode") ["stop-before-mutation", "restore-known-good", "safe-mode"]
    "precondition failure mode"
  ["preconditions", "postconditions", "evidence"].forM fun field =>
    stringList (value.get field) ("precondition " ++ field) false

def inputs (value : Json) (backend operationId : String) (rollback : Bool) : Outcome Unit := do
  mapping value (if rollback then rollbackInputFields else inputFields) "operation inputs"
  refuseIf (rollback && value.get "target" != .str "rollback") "rollback target is invalid"
  refuseIf (value.get "backend" != .str backend) "operation backend identity changed"
  matching (value.get "selector_ref") isSelector "runtime selector reference"
  ["barrier_id", "fencing_token"].forM fun field => matching (value.get field) Upgrade.isToken field
  refuseIf (!(value.get "expected_state_revision").exactInt?.any (fun revision => decide (1 ≤ revision)))
    "expected state revision is invalid"
  refuseIf (value.get "backup_operation_id" != .str (operationId ++ ":backup"))
    "backup operation identity is not bound"

def operation (value : Json) (backend operationId : String) (rollback : Bool) : Outcome Unit := do
  mapping value operationFields "operation"
  matching (value.get "operation_id") isOperationId "operation ID"
  choice (value.get "opcode") (phaseOpcodes.map Prod.snd ++ ["backend.restore"]) "operation opcode"
  inputs (value.get "inputs") backend operationId rollback
  refuseIf (!(value.get "timeout_seconds").exactInt?.any (fun seconds => decide (1 ≤ seconds) && decide (seconds ≤ 86400)))
    "operation timeout is invalid"
  ["resources", "preconditions", "postconditions", "evidence"].forM fun field =>
    stringList (value.get field) ("operation " ++ field) false
  choice (value.get "durable_record") ["operation-id-and-outcome", "safe-mode-record"] "operation durable record"

/-- The backend that the contract of a backend is about. -/
def backendContract (value : Json) : Outcome String := do
  refuseIf (!value.isObj) "backend contract is invalid"
  let backend := value.get "backend"
  let sqlite := backend == .str "sqlite"
  mapping value (["backend", "authority", "backup", "restore", "selector", "projections", "equivalence"] ++
    if sqlite then ["wal"] else []) "backend contract"
  choice backend ["git", "sqlite"] "backend contract identity"
  ["authority", "backup", "restore", "selector", "projections"].forM fun field =>
    stringList (value.get field) ("backend " ++ field) false
  if sqlite then stringList (value.get "wal") "backend WAL contract" false else pure ()
  refuseIf (value.get "equivalence" != .str "authority-compatible-round-trip") "backend equivalence is invalid"
  pure backend.text

def expectedDependencies (phaseId : String) : List String :=
  match phaseId with
  | "preflight" => ["discover"]
  | "quiesce" => ["preflight"]
  | "backup" => ["quiesce"]
  | "stage" => ["backup"]
  | "commit" => ["quiesce", "backup", "stage"]
  | "validate" => ["commit"]
  | "reopen" => ["validate"]
  | _ => []

/-- Mappings with exactly the input fields are equal when their values are. -/
def sameInputs (left right : Json) : Bool := inputFields.all (fun field => left.get field == right.get field)

def isBool (value : Json) (flag : Bool) : Bool :=
  match value with
  | .bool found => found == flag
  | _ => false

/-- One phase at its place in the order, except for the inputs of the phases before. -/
def phase (backend operationId : String) (order : Nat) (named : String × String) (value : Json) : Outcome Unit := do
  mapping value ["id", "order", "mutates_authority", "requires", "on_failure", "operation"] "upgrade phase"
  refuseIf (value.get "id" != .str named.1 || (value.get "order").exactInt? != some (order : Int))
    "phase order or identity is invalid"
  refuseIf (!isBool (value.get "mutates_authority") (named.1 == "commit")) "only commit may mutate authority"
  stringList (value.get "requires") "phase dependencies" true
  let requires := (value.get "requires").items.map Json.text
  refuseIf (!requires.all (expectedDependencies named.1).contains || !(expectedDependencies named.1).all requires.contains)
    "phase dependencies are invalid"
  choice (value.get "on_failure") ["stop-before-mutation", "restore-known-good", "safe-mode"] "phase failure mode"
  operation (value.get "operation") backend operationId false
  refuseIf ((value.get "operation").get "operation_id" != .str (operationId ++ ":" ++ named.1) ||
    (value.get "operation").get "opcode" != .str named.2) "phase operation is not bound"

/-- The phases in their order; all have the inputs of the first one. -/
def phasesFrom (backend operationId : String) : Nat → Option Json → List ((String × String) × Json) → Outcome (Option Json)
  | _, canonical, [] => pure canonical
  | order, canonical, (named, value) :: rest => do
      phase backend operationId order named value
      let supplied := (value.get "operation").get "inputs"
      refuseIf (canonical.any (fun first => !sameInputs supplied first)) "operation inputs change between phases"
      phasesFrom backend operationId (order + 1) (some (canonical.getD supplied)) rest

def rollbackFields : List String :=
  ["required", "backup_integrity", "integrity_by_backend", "equivalence", "reopen_gate", "ambiguous_external_result",
    "operation"]

def rollback (value : Json) (backend operationId : String) (canonical : Json) : Outcome Unit := do
  mapping value rollbackFields "rollback contract"
  refuseIf (!isBool (value.get "required") true || value.get "backup_integrity" != .str "backend-specific" ||
    value.get "integrity_by_backend" !=
      .obj [("git", .str "git-object-and-ref"), ("sqlite", .str "sqlite-integrity-and-backup-api")] ||
    value.get "equivalence" != .str "authority-compatible-round-trip" ||
    value.get "reopen_gate" != .str "validate-before-reopen" || !(value.get "ambiguous_external_result").isStr ||
    !(["persist-operation-id-and-reconcile", "safe-mode"].contains (value.get "ambiguous_external_result").text))
    "rollback contract is invalid"
  operation (value.get "operation") backend operationId true
  refuseIf ((value.get "operation").get "operation_id" != .str (operationId ++ ":rollback") ||
    (value.get "operation").get "opcode" != .str "backend.restore" ||
    !sameInputs ((value.get "operation").get "inputs") canonical) "rollback operation is not bound"

def validateRuntimeContract (document : Json) : Outcome Json := do
  mapping document topFields "upgrade contract"
  refuseIf ((document.get "schema_version").exactInt? != some 2) "upgrade contract schema version is invalid"
  matching (document.get "operation_id") isOperationId "upgrade operation ID"
  choice (document.get "backend") ["git", "sqlite"] "upgrade backend"
  let operationId := (document.get "operation_id").text
  let backend := (document.get "backend").text
  release (document.get "from") "source release"
  release (document.get "to") "target release"
  refuseIf (document.get "from" == document.get "to" ||
    (document.get "from").get "version" == (document.get "to").get "version")
    "source and target releases must differ"
  let preconditions := document.get "preconditions"
  refuseIf (!preconditions.isArr || preconditions.items.isEmpty) "contract preconditions are invalid"
  preconditions.items.forM check
  uniqueObjects preconditions.items "contract preconditions"
  let phases := document.get "phases"
  refuseIf (!phases.isArr || phases.items.length != phaseOpcodes.length) "upgrade phases are invalid"
  let canonical ← phasesFrom backend operationId 1 none (phaseOpcodes.zip phases.items)
  let contracts := document.get "backend_contracts"
  refuseIf (!contracts.isArr || contracts.items.length != 2) "backend contracts are invalid"
  let backends ← contracts.items.mapM backendContract
  refuseIf (!(["git", "sqlite"].all backends.contains) || !backends.all ["git", "sqlite"].contains)
    "both backend contracts are required"
  uniqueObjects contracts.items "backend contracts"
  rollback (document.get "rollback") backend operationId (canonical.getD .null)
  pure document

/-! What an accepted contract fixes -/

theorem refuseIf_eq_ok {bad : Bool} {message : String} : refuseIf bad message = .ok () ↔ bad = false := raiseIf_eq_ok

theorem matching_eq_ok {value : Json} {pattern : String → Bool} {label : String} :
    matching value pattern label = .ok () ↔ ∃ word, value = .str word ∧ pattern word = true := by
  rw [matching, refuseIf_eq_ok, Bool.or_eq_false_iff, Bool.not_eq_false', Bool.not_eq_false']
  constructor
  · rintro ⟨text, matched⟩
    obtain ⟨word, rfl⟩ := Json.isStr_iff.mp text
    exact ⟨word, rfl, matched⟩
  · rintro ⟨word, rfl, matched⟩
    exact ⟨rfl, matched⟩

theorem choice_eq_ok {value : Json} {choices : List String} {label : String} :
    choice value choices label = .ok () ↔ ∃ word, value = .str word ∧ word ∈ choices := by
  rw [choice, refuseIf_eq_ok, Bool.or_eq_false_iff, Bool.not_eq_false', Bool.not_eq_false', List.contains_iff_mem]
  constructor
  · rintro ⟨text, chosen⟩
    obtain ⟨word, rfl⟩ := Json.isStr_iff.mp text
    exact ⟨word, rfl, chosen⟩
  · rintro ⟨word, rfl, chosen⟩
    exact ⟨rfl, chosen⟩

/-- Inputs of an operation in their proper forms. -/
structure InputsValid (value : Json) (backend operationId : String) : Prop where
  backend : value.get "backend" = .str backend
  selector : ∃ word, value.get "selector_ref" = .str word ∧ isSelector word = true
  barrier : ∃ word, value.get "barrier_id" = .str word ∧ Upgrade.isToken word = true
  token : ∃ word, value.get "fencing_token" = .str word ∧ Upgrade.isToken word = true
  revision : ∃ number : Int, value.get "expected_state_revision" = .int number ∧ 1 ≤ number
  backup : value.get "backup_operation_id" = .str (operationId ++ ":backup")

section accepted

variable {value left right : Json} {backend operationId : String}

theorem inputs_eq_ok {rollback : Bool} (accepted : inputs value backend operationId rollback = .ok ()) :
    InputsValid value backend operationId ∧
      value.hasExactly (if rollback then rollbackInputFields else inputFields) = true ∧
      (rollback = true → value.get "target" = .str "rollback") := by
  simp only [inputs, mapping, bind_eq_ok, exists_unit, refuseIf_eq_ok, forM_eq_ok, matching_eq_ok, Bool.not_eq_false',
    List.forall_mem_cons, List.not_mem_nil, false_imp_iff, implies_true, and_true, bne, Bool.and_eq_false_iff,
    Json.beq_str] at accepted
  obtain ⟨exactly, target, named, selector, ⟨barrier, token⟩, revision, backup⟩ := accepted
  refine ⟨⟨named, selector, barrier, token, ?_, backup⟩, exactly, fun flagged => ?_⟩
  · obtain ⟨number, found, positive⟩ := (Option.any_eq_true _ _).mp revision
    exact ⟨number, Json.exactInt?_eq_some.mp found, of_decide_eq_true positive⟩
  · exact target.resolve_left (by simp [flagged])

/-- Texts and whole numbers are equal to the like of them only. -/
def Plain (value : Json) : Prop := (∃ word, value = .str word) ∨ ∃ number, value = .int number

theorem plain_beq (first : Plain left) (second : Plain right) : (left == right) = true ↔ left = right := by
  rcases first with ⟨word, rfl⟩ | ⟨number, rfl⟩
  · rw [Json.str_beq]
    exact eq_comm
  · rcases second with ⟨word, rfl⟩ | ⟨other, rfl⟩
    · exact iff_of_false (fun same => nomatch (Json.beq_str _ _).mp same) nofun
    · rw [Json.beq_int_int, Json.int.injEq]

theorem InputsValid.plain (valid : InputsValid value backend operationId) : ∀ field ∈ inputFields, Plain (value.get field) := by
  obtain ⟨selector, hasSelector, -⟩ := valid.selector
  obtain ⟨barrier, hasBarrier, -⟩ := valid.barrier
  obtain ⟨token, hasToken, -⟩ := valid.token
  obtain ⟨revision, hasRevision, -⟩ := valid.revision
  intro field member
  simp only [inputFields, List.mem_cons, List.not_mem_nil, or_false] at member
  rcases member with rfl | rfl | rfl | rfl | rfl | rfl
  · exact .inl ⟨_, valid.backend⟩
  · exact .inl ⟨_, hasSelector⟩
  · exact .inr ⟨_, hasRevision⟩
  · exact .inl ⟨_, hasBarrier⟩
  · exact .inl ⟨_, hasToken⟩
  · exact .inl ⟨_, valid.backup⟩

theorem sameInputs_iff (first : InputsValid left backend operationId) (second : InputsValid right backend operationId) :
    sameInputs left right = true ↔ ∀ field ∈ inputFields, left.get field = right.get field := by
  rw [sameInputs, List.all_eq_true]
  exact forall₂_congr fun field member => plain_beq (first.plain field member) (second.plain field member)

theorem operation_eq_ok {rollback : Bool} (accepted : operation value backend operationId rollback = .ok ()) :
    (∃ word, value.get "operation_id" = .str word ∧ isOperationId word = true) ∧
      inputs (value.get "inputs") backend operationId rollback = .ok () := by
  simp only [operation, bind_eq_ok, exists_unit, matching_eq_ok] at accepted
  obtain ⟨-, named, -, supplied, -⟩ := accepted
  exact ⟨named, supplied⟩

def phaseInputs (phase : Json) : Json := (phase.get "operation").get "inputs"

/-- A phase at its place: its operation is named after it and has inputs in proper forms. -/
structure PhaseValid (backend operationId : String) (named : String × String) (value : Json) : Prop where
  identity : isOperationId (operationId ++ ":" ++ named.1) = true
  inputs : InputsValid (phaseInputs value) backend operationId

theorem phase_eq_ok {order : Nat} {named : String × String} (accepted : phase backend operationId order named value = .ok ()) :
    PhaseValid backend operationId named value := by
  simp only [phase, bind_eq_ok, exists_unit, refuseIf_eq_ok, Bool.or_eq_false_iff, bne, Bool.not_eq_false',
    Json.beq_str] at accepted
  obtain ⟨-, -, -, -, -, -, performed, identity, -⟩ := accepted
  obtain ⟨⟨word, known, proper⟩, supplied⟩ := operation_eq_ok performed
  rw [identity, Json.str.injEq] at known
  exact ⟨known ▸ proper, (inputs_eq_ok supplied).1⟩

theorem phasesFrom_some {first : Json} {result : Option Json} : ∀ {pairs : List ((String × String) × Json)} {order : Nat},
    phasesFrom backend operationId order (some first) pairs = .ok result → result = some first ∧
      ∀ pair ∈ pairs, PhaseValid backend operationId pair.1 pair.2 ∧ sameInputs (phaseInputs pair.2) first = true := by
  intro pairs
  induction pairs with
  | nil =>
    intro order accepted
    exact ⟨(pure_eq_ok.mp accepted).symm, by simp⟩
  | cons pair rest ih =>
    intro order accepted
    obtain ⟨named, phase⟩ := pair
    simp only [phasesFrom, bind_eq_ok, exists_unit, refuseIf_eq_ok, Option.any_some, Bool.not_eq_false',
      Option.getD_some] at accepted
    obtain ⟨checked, same, later⟩ := accepted
    obtain ⟨found, others⟩ := ih later
    exact ⟨found, List.forall_mem_cons.mpr ⟨⟨phase_eq_ok checked, same⟩, others⟩⟩

/-- All phases are valid and have the inputs that the result gives. -/
theorem phasesFrom_none {result : Option Json} {pairs : List ((String × String) × Json)} {order : Nat} (some_ : pairs ≠ [])
    (accepted : phasesFrom backend operationId order none pairs = .ok result) :
    ∃ first, result = some first ∧ InputsValid first backend operationId ∧
      ∀ pair ∈ pairs, PhaseValid backend operationId pair.1 pair.2 ∧ sameInputs (phaseInputs pair.2) first = true := by
  cases pairs with
  | nil => exact absurd rfl some_
  | cons pair rest =>
    obtain ⟨named, phase⟩ := pair
    simp only [phasesFrom, bind_eq_ok, exists_unit, refuseIf_eq_ok, Option.any_none, Option.getD_none] at accepted
    obtain ⟨checked, -, later⟩ := accepted
    obtain ⟨found, others⟩ := phasesFrom_some later
    have valid := phase_eq_ok checked
    refine ⟨_, found, valid.inputs, List.forall_mem_cons.mpr ⟨⟨valid, ?_⟩, others⟩⟩
    exact (sameInputs_iff valid.inputs valid.inputs).mpr fun _ _ => rfl

/-- What the binding of an accepted contract relies on. -/
structure ContractValid (contract : Json) (backend operationId : String) : Prop where
  named : contract.get "operation_id" = .str operationId
  chosen : contract.get "backend" = .str backend
  known : backend ∈ ["git", "sqlite"]
  identity : isOperationId operationId = true
  phases : ∀ phase ∈ (contract.get "phases").items, InputsValid (phaseInputs phase) backend operationId ∧
    sameInputs (phaseInputs phase) (phaseInputs (contract.get "rollback")) = true
  steps : ∀ named ∈ phaseOpcodes, isOperationId (operationId ++ ":" ++ named.1) = true
  inputs : InputsValid (phaseInputs (contract.get "rollback")) backend operationId
  exactly : (phaseInputs (contract.get "rollback")).hasExactly rollbackInputFields = true
  target : (phaseInputs (contract.get "rollback")).get "target" = .str "rollback"
  rollback : ((contract.get "rollback").get "operation").get "operation_id" = .str (operationId ++ ":rollback")

theorem rollback_eq_ok {canonical : Json} (accepted : rollback value backend operationId canonical = .ok ()) :
    InputsValid (phaseInputs value) backend operationId ∧ (phaseInputs value).hasExactly rollbackInputFields = true ∧
      (phaseInputs value).get "target" = .str "rollback" ∧ sameInputs (phaseInputs value) canonical = true ∧
      (value.get "operation").get "operation_id" = .str (operationId ++ ":rollback") := by
  simp only [rollback, bind_eq_ok, exists_unit, refuseIf_eq_ok, Bool.or_eq_false_iff, bne, Bool.not_eq_false',
    Json.beq_str] at accepted
  obtain ⟨-, -, performed, ⟨identity, -⟩, same⟩ := accepted
  obtain ⟨valid, exactly, target⟩ := inputs_eq_ok (operation_eq_ok performed).2
  exact ⟨valid, exactly, target rfl, same, identity⟩

theorem validateRuntimeContract_eq_ok {document contract : Json} (accepted : validateRuntimeContract document = .ok contract) :
    contract = document ∧ ∃ backend operationId, ContractValid contract backend operationId := by
  simp only [validateRuntimeContract, bind_eq_ok, exists_unit, refuseIf_eq_ok, matching_eq_ok, choice_eq_ok,
    pure_eq_ok] at accepted
  obtain ⟨-, -, ⟨operationId, named, proper⟩, ⟨backend, chosen, known⟩, -, -, -, -, -, -, shape, canonical, phases, -,
    -, -, -, -, restored, rfl⟩ := accepted
  refine ⟨rfl, backend, operationId, ?_⟩
  simp only [named, chosen, Json.text] at phases restored
  rw [Bool.or_eq_false_iff, bne_eq_false_iff_eq] at shape
  have count := shape.2
  obtain ⟨first, rfl, valid, all⟩ := phasesFrom_none (by
    intro empty
    have none := congrArg List.length empty
    rw [List.length_zip, count, Nat.min_self] at none
    cases none) phases
  obtain ⟨inputs, exactly, target, same, identity⟩ := rollback_eq_ok restored
  rw [Option.getD_some] at same
  refine ⟨named, chosen, known, proper, fun phase member => ?_, fun step member => ?_, inputs, exactly, target, identity⟩
  · have zipped : (phaseOpcodes.zip (document.get "phases").items).map Prod.snd = (document.get "phases").items :=
      List.map_snd_zip (Nat.le_of_eq count)
    rw [← zipped] at member
    obtain ⟨pair, listed, rfl⟩ := List.mem_map.mp member
    obtain ⟨checked, alike⟩ := all pair listed
    refine ⟨checked.inputs, (sameInputs_iff checked.inputs inputs).mpr fun field inside => ?_⟩
    exact ((sameInputs_iff checked.inputs valid).mp alike field inside).trans
      ((sameInputs_iff inputs valid).mp same field inside).symm
  · have zipped : (phaseOpcodes.zip (document.get "phases").items).map Prod.fst = phaseOpcodes :=
      List.map_fst_zip (Nat.le_of_eq count.symm)
    rw [← zipped] at member
    obtain ⟨pair, listed, rfl⟩ := List.mem_map.mp member
    exact (all pair listed).1.identity

end accepted

end Coordinator.UpgradeContract
