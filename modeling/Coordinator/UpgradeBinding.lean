import Coordinator.Kit.RawJson
import Coordinator.UpgradeContract
import Coordinator.UpgradeJournal

/-! The binding of a portable contract to a runtime envelope, and the engine that is given the
envelope's identifiers: which accepted contracts have an envelope that all of them take. -/

namespace Coordinator.UpgradeContract
open Kit

def bindingFields : List String :=
  ["schema_version", "contract_digest", "session_identity_digest", "contract_operation_id", "contract_backend",
    "contract_selector_ref", "contract_expected_state_revision", "contract_barrier_id", "contract_fencing_token",
    "contract_backup_operation_id", "runtime_envelope"]

structure UpgradeRuntimeBinding where
  schemaVersion : Json
  contractDigest : Json
  sessionIdentityDigest : Json
  contractOperationId : Json
  contractBackend : Json
  contractSelectorRef : Json
  contractExpectedStateRevision : Json
  contractBarrierId : Json
  contractFencingToken : Json
  contractBackupOperationId : Json
  runtimeEnvelope : Dict

def canonicalContractDigest (contract : Json) : String := Sha256.hexdigest contract.rawBytes

def contractInputs (contract : Json) : Json := ((contract.get "rollback").get "operation").get "inputs"

def validateContractIdentity (contract : Json) : Outcome Json := do
  let value ← match validateRuntimeContract contract with
    | .ok value => pure value
    | .error _ => .error "upgrade contract is invalid"
  let inputs := contractInputs value
  refuseIf (!inputs.isObj) "upgrade rollback operation inputs are invalid"
  refuseIf (!inputs.hasExactly rollbackInputFields) "upgrade contract binding inputs are invalid"
  (value.get "phases").items.forM fun phase =>
    refuseIf (!sameInputs ((phase.get "operation").get "inputs") inputs) "upgrade phase inputs do not match rollback inputs"
  refuseIf (value.get "backend" != inputs.get "backend") "upgrade contract backend binding is inconsistent"
  refuseIf (inputs.get "backup_operation_id" != .str ((value.get "operation_id").text ++ ":backup"))
    "upgrade backup operation identity is invalid"
  refuseIf (inputs.get "target" != .str "rollback") "upgrade rollback target is invalid"
  refuseIf (((value.get "rollback").get "operation").get "operation_id" !=
    .str ((value.get "operation_id").text ++ ":rollback")) "upgrade rollback operation identity is invalid"
  pure value

def validatedEnvelope (envelope : Dict) : Outcome Unit :=
  refuseIf (Upgrade.validateEnvelope envelope).isNone "runtime upgrade envelope is invalid"

/-- The fields of an envelope that repeat an input of the contract. -/
def boundFields : List (String × String) :=
  [("selector_ref", "selector_ref"), ("state_revision", "expected_state_revision"), ("durable_barrier_id", "barrier_id"),
    ("fencing_token", "fencing_token")]

def bind (contract : Json) (envelope : Dict) (sessionIdentityDigest : String) : Outcome UpgradeRuntimeBinding := do
  let value ← validateContractIdentity contract
  validatedEnvelope envelope
  let inputs := contractInputs value
  refuseIf (!isDigest sessionIdentityDigest) "runtime barrier session identity digest is invalid"
  refuseIf (envelope.get "target" != .str "rollback") "runtime binding target must be rollback"
  refuseIf (envelope.get "operation_id" != value.get "operation_id") "runtime operation identity does not match contract"
  refuseIf (envelope.get "backend" != inputs.get "backend") "runtime backend identity does not match contract"
  boundFields.forM fun names =>
    refuseIf (envelope.get names.1 != inputs.get names.2) ("runtime " ++ names.1 ++ " does not match contract")
  pure ⟨.int 1, .str (canonicalContractDigest value), .str sessionIdentityDigest, value.get "operation_id",
    inputs.get "backend", inputs.get "selector_ref", inputs.get "expected_state_revision", inputs.get "barrier_id",
    inputs.get "fencing_token", inputs.get "backup_operation_id", envelope⟩

def asMapping (binding : UpgradeRuntimeBinding) : Dict :=
  [("schema_version", binding.schemaVersion), ("contract_digest", binding.contractDigest),
    ("session_identity_digest", binding.sessionIdentityDigest), ("contract_operation_id", binding.contractOperationId),
    ("contract_backend", binding.contractBackend), ("contract_selector_ref", binding.contractSelectorRef),
    ("contract_expected_state_revision", binding.contractExpectedStateRevision),
    ("contract_barrier_id", binding.contractBarrierId), ("contract_fencing_token", binding.contractFencingToken),
    ("contract_backup_operation_id", binding.contractBackupOperationId), ("runtime_envelope", .obj binding.runtimeEnvelope)]

def storedFields : List (String × String) :=
  [("contract_selector_ref", "selector_ref"), ("contract_expected_state_revision", "state_revision"),
    ("contract_barrier_id", "durable_barrier_id"), ("contract_fencing_token", "fencing_token")]

def textFields : List String :=
  ["contract_digest", "session_identity_digest", "contract_operation_id", "contract_backend", "contract_selector_ref",
    "contract_barrier_id", "contract_fencing_token", "contract_backup_operation_id"]

def fromMapping (value : Dict) : Outcome UpgradeRuntimeBinding := do
  refuseIf (!(Json.obj value).hasExactly bindingFields) "runtime binding fields are invalid"
  refuseIf (value.get "schema_version" != .int 1) "runtime binding schema version is invalid"
  let envelope := value.get "runtime_envelope"
  refuseIf (!envelope.hasExactly Upgrade.envelopeFields) "runtime binding envelope is invalid"
  refuseIf (value.get "contract_operation_id" != envelope.get "operation_id")
    "runtime binding operation identity is inconsistent"
  refuseIf (value.get "contract_backend" != envelope.get "backend") "runtime binding backend identity is inconsistent"
  storedFields.forM fun names =>
    refuseIf (value.get names.1 != envelope.get names.2) ("runtime binding " ++ names.1 ++ " is inconsistent with envelope")
  textFields.forM fun field =>
    refuseIf (!(value.get field).isStr || (value.get field).text == "") ("runtime binding " ++ field ++ " is invalid")
  refuseIf (!isDigest (value.get "contract_digest").text) "runtime binding contract digest is invalid"
  refuseIf (!isDigest (value.get "session_identity_digest").text) "runtime binding session identity digest is invalid"
  refuseIf (!(value.get "contract_expected_state_revision").exactInt?.any (fun revision => decide (1 ≤ revision)))
    "runtime binding state revision is invalid"
  validatedEnvelope envelope.fields
  pure ⟨value.get "schema_version", value.get "contract_digest", value.get "session_identity_digest",
    value.get "contract_operation_id", value.get "contract_backend", value.get "contract_selector_ref",
    value.get "contract_expected_state_revision", value.get "contract_barrier_id", value.get "contract_fencing_token",
    value.get "contract_backup_operation_id", envelope.fields⟩

/-- The checks of an engine on the identity that it is constructed with. -/
def engineIdentity (operationId : String) (context : Dict) : Upgrade.Outcome Unit := do
  Upgrade.refuseIf (operationId == "" || Text.contains ':' operationId) "invalid operation identity"
  let _ ← Upgrade.validateContext operationId context
  pure ()

/-- The envelope is one for the rollback of the contract. -/
structure Carries (contract : Json) (envelope : Dict) : Prop where
  target : envelope.get "target" = .str "rollback"
  operation : envelope.get "operation_id" = contract.get "operation_id"
  backend : envelope.get "backend" = contract.get "backend"
  fields : ∀ names ∈ boundFields, envelope.get names.1 = (contractInputs contract).get names.2

/-- An envelope carries the contract, binds to it in every session, survives being stored, and is one
that the engine takes. -/
def Executable (contract : Json) : Prop :=
  ∃ envelope, Carries contract envelope ∧ engineIdentity (contract.get "operation_id").text envelope = .ok () ∧
    ∀ session, isDigest session = true → ∃ binding, bind contract envelope session = .ok binding ∧
      fromMapping (asMapping binding) = .ok binding

/-! Identifiers -/

theorem isToken_iff {word : String} (proper : isOperationId word = true) :
    Upgrade.isToken word = true ↔ Text.contains ':' word = false := by
  unfold isOperationId Upgrade.isToken Text.shape Text.contains at *
  rw [Text.characters_eq] at *
  cases chars : word.toList with
  | nil => simp [chars] at proper
  | cons first rest =>
    simp only [chars, Bool.and_eq_true, List.all_eq_true, isOperationTail, Bool.or_eq_true, beq_iff_eq] at proper ⊢
    obtain ⟨⟨⟨head, tail⟩, low⟩, high⟩ := proper
    rw [← Bool.not_eq_true, List.contains_iff_mem]
    constructor
    · rintro ⟨⟨⟨-, tokens⟩, -⟩, -⟩ member
      rcases List.mem_cons.mp member with rfl | inside
      · exact absurd head (by decide)
      · exact absurd (tokens ':' inside) (by decide)
    · intro absent
      refine ⟨⟨⟨head, fun c member => (tail c member).resolve_right fun colon => absent ?_⟩, low⟩, high⟩
      exact List.mem_cons_of_mem first (colon ▸ member)

theorem length_of_operationId {word : String} (proper : isOperationId word = true) : word.length ≤ 128 := by
  unfold isOperationId Text.shape at proper
  rw [Text.characters_eq] at proper
  rw [← String.length_toList]
  cases chars : word.toList with
  | nil => simp
  | cons first rest =>
    simp only [chars, Bool.and_eq_true, decide_eq_true_eq] at proper
    rw [List.length_cons]
    omega

/-- A pattern that does not match the empty text matches other texts only. -/
theorem ne_empty {pattern : String → Bool} {word : String} (refuses : pattern "" = false) (matched : pattern word = true) :
    word ≠ "" := by
  rintro rfl
  rw [refuses] at matched
  cases matched

theorem ContractValid.short {contract : Json} {backend operationId : String} (valid : ContractValid contract backend operationId) :
    operationId.length ≤ Upgrade.maxOperationIdLength := by
  have step := length_of_operationId (valid.steps ("preflight", "admission.check") (by decide))
  have limit : Upgrade.maxOperationIdLength = 118 := by decide
  have named : "preflight".length = 9 := by decide
  have colon : ":".length = 1 := by decide
  rw [String.length_append, String.length_append, named, colon] at step
  omega

theorem isSelectorRef_eq (word : String) :
    Upgrade.isSelectorRef word = (isSelector word && Upgrade.normpath word == word) := rfl

/-! An envelope for given identifiers -/

/-- The envelope of a rollback without its digests. -/
def draft (backend operationId selector barrier token : String) (revision : Int) : Upgrade.PhaseContext :=
  ⟨2, backend, "5f0c9a6e-7d1b-4c3a-9e2f-8b6d4a1c0e57", operationId, revision, "authority-1", token, "worker-1", barrier,
    "/artifacts", "/authority", "/artifacts/backup", "/artifacts/manifest.json", selector, "", "rollback", ""⟩

/-- The context with given digests. -/
def digested (context : Upgrade.PhaseContext) (barrierDigest envelopeDigest : String) : Upgrade.PhaseContext :=
  { context with barrierIdentityDigest := barrierDigest, envelopeDigest := envelopeDigest }

/-- What an envelope has apart from its digests. -/
def isUndigested (context : Upgrade.PhaseContext) : Bool :=
  context.schemaVersion == 2 && 1 ≤ context.stateRevision && Upgrade.isUuid4 context.projectId &&
    ["git", "sqlite"].contains context.backend && ["new", "rollback"].contains context.target &&
    [context.operationId, context.authorityRevision, context.durableBarrierId, context.fencingToken,
      context.fencingOwner].all Upgrade.isToken &&
    [context.artifactRoot, context.source, context.destination, context.manifest].all Upgrade.canonicalPath &&
    Upgrade.isSelectorRef context.selectorRef && context.separated

section envelope

variable (context : Upgrade.PhaseContext) (x y : String)

theorem barrierFields_digested : Upgrade.selectFields (digested context x y).asdict Upgrade.barrierIdentityFields =
    Upgrade.selectFields context.asdict Upgrade.barrierIdentityFields := rfl

theorem envelopeFields_digested :
    Upgrade.selectFields (digested context x y).asdict (Upgrade.envelopeFields.filter (· ≠ "envelope_digest")) =
      Upgrade.selectFields (digested context x "").asdict (Upgrade.envelopeFields.filter (· ≠ "envelope_digest")) := rfl

variable {context x y}

/-- With the digests of its own fields, such a context is an envelope. -/
theorem digested_isEnvelope (proper : isUndigested context = true)
    (barrierDigest : x = Upgrade.canonicalBarrierDigest context.asdict)
    (envelopeDigest : y = Upgrade.canonicalEnvelopeDigest (digested context x "").asdict) :
    (digested context x y).isEnvelope = true := by
  have barrierText : Text.hexText 64 x = true := barrierDigest ▸ Sha256.hexText_hexdigest _
  have envelopeText : Text.hexText 64 y = true := envelopeDigest ▸ Sha256.hexText_hexdigest _
  rw [Upgrade.canonicalBarrierDigest, ← barrierFields_digested context x y] at barrierDigest
  rw [Upgrade.canonicalEnvelopeDigest, ← envelopeFields_digested context x y] at envelopeDigest
  simp only [isUndigested, Bool.and_eq_true] at proper
  obtain ⟨⟨⟨⟨⟨⟨⟨⟨schema, positive⟩, project⟩, known⟩, aims⟩, tokens⟩, paths⟩, selects⟩, apart⟩ := proper
  have digests : [x, y].all (Text.hexText 64) = true := by simp [barrierText, envelopeText]
  have barrierOwn : (x == Upgrade.canonicalBarrierDigest (digested context x y).asdict) = true := beq_iff_eq.mpr barrierDigest
  have envelopeOwn : (y == Upgrade.canonicalEnvelopeDigest (digested context x y).asdict) = true := beq_iff_eq.mpr envelopeDigest
  simp only [Upgrade.PhaseContext.isEnvelope, Bool.and_eq_true]
  exact ⟨⟨⟨⟨⟨⟨⟨⟨⟨⟨⟨schema, positive⟩, project⟩, known⟩, aims⟩, tokens⟩, digests⟩, paths⟩, selects⟩, apart⟩, barrierOwn⟩, envelopeOwn⟩

end envelope

theorem draft_isUndigested {backend operationId selector barrier token : String} {revision : Int}
    (known : backend ∈ ["git", "sqlite"]) (operation : Upgrade.isToken operationId = true)
    (selects : Upgrade.isSelectorRef selector = true) (fenced : Upgrade.isToken barrier = true)
    (tokened : Upgrade.isToken token = true) (positive : 1 ≤ revision) :
    isUndigested (draft backend operationId selector barrier token revision) = true := by
  have apart : (draft backend operationId selector barrier token revision).separated =
      (draft "git" "a" "a" "a" "a" 1).separated := rfl
  have fixed : (draft "git" "a" "a" "a" "a" 1).separated = true ∧ Upgrade.isToken "authority-1" = true ∧
      Upgrade.isToken "worker-1" = true ∧ Upgrade.isUuid4 "5f0c9a6e-7d1b-4c3a-9e2f-8b6d4a1c0e57" = true ∧
      ["/artifacts", "/authority", "/artifacts/backup", "/artifacts/manifest.json"].all Upgrade.canonicalPath = true ∧
      ["new", "rollback"].contains "rollback" = true := by decide +kernel
  obtain ⟨separate, revised, owned, project, paths, aims⟩ := fixed
  rw [isUndigested, apart, separate]
  simp only [draft, project, paths, aims, selects, Bool.and_true, List.all_cons, List.all_nil, operation, revised, owned,
    fenced, tokened, Bool.and_eq_true, beq_self_eq_true, true_and]
  exact ⟨decide_eq_true positive, List.contains_iff_mem.mpr known⟩

/-! Binding an accepted contract -/

section binding

variable {contract : Json} {backend operationId session : String} {envelope : Dict}

theorem bne_str_eq_false {value : Json} {word : String} : (value != .str word) = false ↔ value = .str word := by
  rw [bne, Bool.not_eq_false', Json.beq_str]

theorem plain_bne {value : Json} (plain : Plain value) : (value != value) = false := by
  rw [bne, Bool.not_eq_false']
  exact (plain_beq plain plain).mpr rfl

theorem validateContractIdentity_ok (accepted : validateRuntimeContract contract = .ok contract)
    (valid : ContractValid contract backend operationId) : validateContractIdentity contract = .ok contract := by
  have exactly : (contractInputs contract).hasExactly rollbackInputFields = true := valid.exactly
  have object : (contractInputs contract).isObj = true := by
    rw [Json.hasExactly, Bool.and_eq_true, Bool.and_eq_true] at exactly
    exact exactly.1.1
  have named : (contract.get "operation_id").text = operationId := by rw [valid.named, Json.text]
  simp only [validateContractIdentity, accepted, bind_eq_ok, exists_unit, refuseIf_eq_ok, forM_eq_ok, pure_eq_ok,
    bne_str_eq_false]
  refine ⟨contract, rfl, by rw [object]; rfl, by rw [exactly]; rfl, fun phase member => ?_, ?_, ?_, valid.target, ?_, rfl⟩
  · rw [Bool.not_eq_false']
    exact (valid.phases phase member).2
  · rw [valid.chosen]
    exact (congrArg (fun value => Json.str backend != value) valid.inputs.backend).trans (plain_bne (.inl ⟨_, rfl⟩))
  · rw [named]
    exact valid.inputs.backup
  · rw [named]
    exact valid.rollback

/-- The binding that is made of an envelope of the contract. -/
def bindingOf (contract : Json) (envelope : Dict) (session : String) : UpgradeRuntimeBinding :=
  ⟨.int 1, .str (canonicalContractDigest contract), .str session, contract.get "operation_id",
    (contractInputs contract).get "backend", (contractInputs contract).get "selector_ref",
    (contractInputs contract).get "expected_state_revision", (contractInputs contract).get "barrier_id",
    (contractInputs contract).get "fencing_token", (contractInputs contract).get "backup_operation_id", envelope⟩

theorem bind_ok (accepted : validateRuntimeContract contract = .ok contract) (valid : ContractValid contract backend operationId)
    (carries : Carries contract envelope) (canonical : (Upgrade.validateEnvelope envelope).isSome = true)
    (digest : isDigest session = true) : bind contract envelope session = .ok (bindingOf contract envelope session) := by
  have inputs : contractInputs contract = phaseInputs (contract.get "rollback") := rfl
  have plain : ∀ names ∈ boundFields, Plain ((contractInputs contract).get names.2) := by
    intro names member
    refine valid.inputs.plain names.2 ?_
    have listed : ∀ names ∈ boundFields, names.2 ∈ inputFields := by decide
    exact listed names member
  simp only [bind, validateContractIdentity_ok accepted valid, validatedEnvelope, bind_eq_ok, exists_unit, refuseIf_eq_ok,
    forM_eq_ok, pure_eq_ok]
  refine ⟨contract, rfl, Option.isNone_eq_false_iff.mpr canonical, by rw [digest]; rfl, ?_, ?_, ?_, fun names member => ?_, rfl⟩
  · rw [carries.target]
    rfl
  · rw [carries.operation, valid.named, bne, Bool.not_eq_false', Json.beq_str]
  · rw [carries.backend, valid.chosen, inputs, valid.inputs.backend, bne, Bool.not_eq_false', Json.beq_str]
  · rw [carries.fields names member, bne, Bool.not_eq_false']
    exact (plain_beq (plain names member) (plain names member)).mpr rfl

/-- The binding is read back from its mapping as it was. -/
theorem fromMapping_asMapping (valid : ContractValid contract backend operationId) (carries : Carries contract envelope)
    (canonical : (Upgrade.validateEnvelope envelope).isSome = true) (digest : isDigest session = true) :
    fromMapping (asMapping (bindingOf contract envelope session)) = .ok (bindingOf contract envelope session) := by
  have inputs : contractInputs contract = phaseInputs (contract.get "rollback") := rfl
  obtain ⟨selector, hasSelector, selects⟩ := valid.inputs.selector
  obtain ⟨barrier, hasBarrier, fenced⟩ := valid.inputs.barrier
  obtain ⟨token, hasToken, tokened⟩ := valid.inputs.token
  obtain ⟨revision, hasRevision, positive⟩ := valid.inputs.revision
  have fields := carries.fields
  simp only [boundFields, List.forall_mem_cons, List.not_mem_nil, false_imp_iff, implies_true, and_true, inputs,
    hasSelector, hasRevision, hasBarrier, hasToken] at fields
  have exactly : (Json.obj envelope).hasExactly Upgrade.envelopeFields = true := by
    by_contra other
    rw [Upgrade.validateEnvelope, if_neg other] at canonical
    cases canonical
  have known : bindingOf contract envelope session = ⟨.int 1, .str (canonicalContractDigest contract), .str session,
      .str operationId, .str backend, .str selector, .int revision, .str barrier, .str token,
      .str (operationId ++ ":backup"), envelope⟩ := by
    rw [bindingOf, inputs, valid.named, valid.inputs.backend, hasSelector, hasRevision, hasBarrier, hasToken,
      valid.inputs.backup]
  have own {value other : Json} (plain : Plain other) (same : value = other) : (other != value) = false := by
    rw [same]
    exact plain_bne plain
  rw [known]
  simp only [fromMapping, bind_eq_ok, exists_unit, refuseIf_eq_ok, forM_eq_ok, pure_eq_ok]
  refine ⟨rfl, rfl, by rw [Bool.not_eq_false']; exact exactly, own (.inl ⟨_, rfl⟩) (carries.operation.trans valid.named),
    own (.inl ⟨_, rfl⟩) (carries.backend.trans valid.chosen), ?_, ?_, ?_, ?_, ?_, ?_, rfl⟩
  · simp only [storedFields, List.forall_mem_cons, List.not_mem_nil, false_imp_iff, implies_true, and_true]
    exact ⟨own (.inl ⟨_, rfl⟩) fields.1, own (.inr ⟨_, rfl⟩) fields.2.1, own (.inl ⟨_, rfl⟩) fields.2.2.1,
      own (.inl ⟨_, rfl⟩) fields.2.2.2⟩
  · have filled {word : String} (some : word ≠ "") : (!(Json.str word).isStr || (Json.str word).text == "") = false := by
      simpa [Json.isStr, Json.text] using some
    have chosen : backend ≠ "" := fun empty => absurd (empty ▸ valid.known) (by decide)
    have backup : operationId ++ ":backup" ≠ "" := fun empty => by
      have length := congrArg String.length empty
      rw [String.length_append, (by decide : ":backup".length = 7), (by decide : "".length = 0)] at length
      omega
    simp only [textFields, List.forall_mem_cons, List.not_mem_nil, false_imp_iff, implies_true, and_true]
    exact ⟨filled (ne_empty (by decide) (Sha256.hexText_hexdigest _)), filled (ne_empty (by decide) digest),
      filled (ne_empty (by decide) valid.identity), filled chosen, filled (ne_empty (by decide) selects),
      filled (ne_empty (by decide) fenced), filled (ne_empty (by decide) tokened), filled backup⟩
  · rw [Bool.not_eq_false']
    exact Sha256.hexText_hexdigest _
  · rw [Bool.not_eq_false']
    exact digest
  · rw [Bool.not_eq_false']
    exact (Option.any_eq_true _ _).mpr ⟨revision, rfl, decide_eq_true positive⟩
  · rw [validatedEnvelope, refuseIf_eq_ok]
    exact Option.isNone_eq_false_iff.mpr canonical

end binding

theorem selectorRef_of_readContext {record : Dict} {context : Upgrade.PhaseContext}
    (read : Upgrade.readContext record = some context) : record.get "selector_ref" = .str context.selectorRef := by
  -- the fourteenth of the seventeen fields that are read
  iterate 13 obtain ⟨_, _, read⟩ := Option.bind_eq_some_iff.mp read
  obtain ⟨selector, named, read⟩ := Option.bind_eq_some_iff.mp read
  iterate 3 obtain ⟨_, _, read⟩ := Option.bind_eq_some_iff.mp read
  cases read
  exact Upgrade.str?_eq_some.mp named

/-- What the engine takes has no colon in its operation and a selector in normal form. -/
theorem engineIdentity_forms {operationId : String} {context : Dict} (taken : engineIdentity operationId context = .ok ()) :
    Text.contains ':' operationId = false ∧
      Upgrade.normpath (context.get "selector_ref").text = (context.get "selector_ref").text := by
  simp only [engineIdentity, Upgrade.validateContext, Upgrade.refuseIf, bind_eq_ok, exists_unit, raiseIf_eq_ok,
    orRaise_eq_ok, pure_eq_ok, Bool.or_eq_false_iff] at taken
  obtain ⟨⟨-, plain⟩, _, ⟨-, found, validated, -, -⟩, -⟩ := taken
  obtain ⟨read, canonical⟩ := Upgrade.validateEnvelope_eq_some validated
  refine ⟨plain, ?_⟩
  simp only [Upgrade.PhaseContext.isEnvelope, Bool.and_eq_true] at canonical
  obtain ⟨⟨⟨⟨-, selects⟩, -⟩, -⟩, -⟩ := canonical
  rw [isSelectorRef_eq, Bool.and_eq_true] at selects
  rw [selectorRef_of_readContext read, Json.text]
  exact beq_iff_eq.mp selects.2

def sampleRelease (version commit : String) : Json := .obj
  [("version", .str version), ("source_commit", .str commit), ("tag_ref", .str ("refs/tags/" ++ version)),
    ("tag_object", .str commit), ("trust_policy_sha256", .str (String.ofList (List.replicate 64 'a'))),
    ("vendor_manifest_sha256", .str (String.ofList (List.replicate 64 'b')))]

def one (word : String) : Json := .arr [.str word]

def sampleInputs (operationId selector : String) : Dict :=
  [("backend", .str "git"), ("selector_ref", .str selector), ("expected_state_revision", .int 3),
    ("barrier_id", .str "barrier-1"), ("fencing_token", .str "fence-1"),
    ("backup_operation_id", .str (operationId ++ ":backup"))]

def sampleOperation (operationId opcode : String) (inputs : Dict) : Json := .obj
  [("operation_id", .str operationId), ("opcode", .str opcode), ("inputs", .obj inputs), ("timeout_seconds", .int 60),
    ("resources", one "disk"), ("preconditions", one "held"), ("postconditions", one "kept"), ("evidence", one "log"),
    ("durable_record", .str "operation-id-and-outcome")]

def samplePhase (operationId selector : String) (order : Nat) (named : String × String) : Json := .obj
  [("id", .str named.1), ("order", .int order), ("mutates_authority", .bool (named.1 == "commit")),
    ("requires", .arr ((expectedDependencies named.1).map Json.str)), ("on_failure", .str "safe-mode"),
    ("operation", sampleOperation (operationId ++ ":" ++ named.1) named.2 (sampleInputs operationId selector))]

def sampleBackend (backend : String) (wal : Dict) : Json := .obj
  ([("backend", .str backend), ("authority", one "tasks"), ("backup", one "copy"), ("restore", one "copy"),
    ("selector", one "current"), ("projections", one "views"), ("equivalence", .str "authority-compatible-round-trip")] ++ wal)

/-- A contract with all its parts in order, for an operation and a selector. -/
def sampleContract (operationId selector : String) : Json := .obj
  [("schema_version", .int 2), ("operation_id", .str operationId), ("backend", .str "git"),
    ("from", sampleRelease "v1.0.0" (String.ofList (List.replicate 40 'a'))),
    ("to", sampleRelease "v1.1.0" (String.ofList (List.replicate 40 'b'))),
    ("preconditions", .arr [.obj
      [("id", .str "QUIESCED"), ("effect", .str "quiesce"), ("failure_mode", .str "safe-mode"),
        ("preconditions", one "held"), ("postconditions", one "kept"), ("evidence", one "log")]]),
    ("phases", .arr ((phaseOpcodes.zipIdx 1).map fun entry => samplePhase operationId selector entry.2 entry.1)),
    ("backend_contracts", .arr [sampleBackend "git" [], sampleBackend "sqlite" [("wal", one "checkpoint")]]),
    ("rollback", .obj
      [("required", .bool true), ("backup_integrity", .str "backend-specific"),
        ("integrity_by_backend",
          .obj [("git", .str "git-object-and-ref"), ("sqlite", .str "sqlite-integrity-and-backup-api")]),
        ("equivalence", .str "authority-compatible-round-trip"), ("reopen_gate", .str "validate-before-reopen"),
        ("ambiguous_external_result", .str "safe-mode"),
        ("operation", sampleOperation (operationId ++ ":rollback") "backend.restore"
          (sampleInputs operationId selector ++ [("target", .str "rollback")]))])]

theorem sampleContract_accepted {operationId selector : String}
    (valid : allowed (validateRuntimeContract (sampleContract operationId selector)) = true) :
    validateRuntimeContract (sampleContract operationId selector) = .ok (sampleContract operationId selector) := by
  obtain ⟨contract, accepted⟩ := allowed_iff.mp valid
  rw [accepted, (validateRuntimeContract_eq_ok accepted).1]

end Coordinator.UpgradeContract
