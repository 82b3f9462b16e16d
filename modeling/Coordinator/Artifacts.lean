import Coordinator.Kit.Access
import Coordinator.Kit.JsonText
import Coordinator.OracleLifecycle

/-! The binding of planning artifacts to a task revision: typed references and digests before and after a change, and the
reading of such a binding from a record of unknown shape. -/

namespace Coordinator.Artifacts
open Kit Kit.Access

inductive ArtifactType where
  | workPlan
  | designDocument
  | dependencyGraph
  | arManifest
  | formalSpecification
  deriving DecidableEq

def ArtifactType.value : ArtifactType → String
  | .workPlan => "work_plan"
  | .designDocument => "design_document"
  | .dependencyGraph => "dependency_graph"
  | .arManifest => "ar_manifest"
  | .formalSpecification => "formal_specification"

def artifactTypes : List ArtifactType := [.workPlan, .designDocument, .dependencyGraph, .arManifest, .formalSpecification]

/-- The member with this value. -/
def ArtifactType.ofText (word : String) : Checked ArtifactType :=
  orRaise (artifactTypes.find? (·.value == word)) (.valueError (Json.shown word ++ " is not a valid ArtifactType"))

def publicRef (value label : String) : Checked Unit :=
  raiseIf (!OracleLifecycle.publicRef value) (.own (label ++ " must be a public-safe reference"))

def digest (value label : String) : Checked Unit :=
  raiseIf (!Text.isDigest value) (.own (label ++ " must be a sha256 digest"))

/-- Exactly of the integer type, and at least one. -/
def positive (value : Json) : Bool := value.exactInt?.any (1 ≤ ·)

/-- What a snapshot is made of, before its checks. -/
structure SnapshotFields where
  artifactType : ArtifactType
  ref : String
  digest : String
  scope : String
  taskRevision : Json
  version : Json
  predecessors : List String

def SnapshotFields.check (fields : SnapshotFields) : Checked Unit := do
  publicRef fields.ref "artifact ref"
  Artifacts.digest fields.digest "artifact digest"
  publicRef fields.scope "artifact scope"
  raiseIf (!positive fields.taskRevision) (.own "artifact task revision must be positive")
  raiseIf (!positive fields.version) (.own "artifact version must be positive")
  raiseIf (!decide fields.predecessors.Nodup) (.own "artifact predecessors must be unique")
  fields.predecessors.forM fun predecessor => publicRef predecessor "artifact predecessor"

/-- One public reference to a versioned artifact. One that fails its checks cannot be made. -/
structure ArtifactSnapshot extends SnapshotFields where
  checked : toSnapshotFields.check = .ok ()

def ArtifactSnapshot.make (fields : SnapshotFields) : Checked ArtifactSnapshot :=
  match checked : fields.check with
  | .ok () => .ok ⟨fields, checked⟩
  | .error raised => .error raised

def snapshotNames : List String := ["artifact_type", "ref", "digest", "scope", "task_revision", "version", "predecessors"]

def ArtifactSnapshot.asRecord (snapshot : ArtifactSnapshot) : Json :=
  .obj [("artifact_type", .str snapshot.artifactType.value), ("ref", .str snapshot.ref), ("digest", .str snapshot.digest),
    ("scope", .str snapshot.scope), ("task_revision", snapshot.taskRevision), ("version", snapshot.version),
    ("predecessors", .arr (snapshot.predecessors.map .str))]

/-- Type and value errors become errors of the binding. -/
def wrapped {α : Type} (x : Checked α) : Checked α :=
  x.mapError fun raised =>
    match raised with
    | .typeError message => .own message
    | .valueError message => .own message
    | other => other

def ArtifactSnapshot.fromRecord (value : Json) : Checked ArtifactSnapshot := do
  let names ← setOf value
  raiseIf (!sameNames names snapshotNames) (.own "artifact snapshot fields are incomplete or unknown")
  let listed ← subscript value "predecessors"
  let predecessors ← orRaise (strings? listed) (.own "artifact predecessors must be a list of references")
  wrapped do
    let kind ← subscript value "artifact_type"
    let artifactType ← ArtifactType.ofText kind.toText
    let ref ← subscript value "ref"
    let digest ← subscript value "digest"
    let scope ← subscript value "scope"
    let taskRevision ← subscript value "task_revision"
    let version ← subscript value "version"
    ArtifactSnapshot.make ⟨artifactType, ref.toText, digest.toText, scope.toText, taskRevision, version, predecessors⟩

/-- What a binding is made of, before its checks. -/
structure BindingFields where
  taskId : String
  taskRevision : Json
  before : List ArtifactSnapshot
  after : List ArtifactSnapshot
  action : String
  reopenedDependents : List Json

/-- A set of artifacts with each type once, all for one task revision. -/
def complete (label : String) (taskRevision : Json) (snapshots : List ArtifactSnapshot) : Checked Unit := do
  raiseIf (snapshots.length != artifactTypes.length) (.own ("binding " ++ label ++ " artifacts are incomplete"))
  let kinds := snapshots.map (·.artifactType)
  raiseIf (!(artifactTypes.all kinds.contains && kinds.all artifactTypes.contains))
    (.own ("binding " ++ label ++ " artifacts must contain every type"))
  raiseIf (!decide kinds.Nodup) (.own ("binding " ++ label ++ " artifacts contain duplicate types"))
  raiseIf (snapshots.any (fun item => item.taskRevision != taskRevision))
    (.own ("binding " ++ label ++ " revision does not match task revision"))

def dependent (value : Json) : Checked Unit :=
  match value with
  | .str word => raiseIf (!isTaskId word) (.own "reopened dependent task id is invalid")
  | other => .error (.typeError ("expected string or bytes-like object, got '" ++ typeName other ++ "'"))

def byType (snapshots : List ArtifactSnapshot) : List ArtifactSnapshot :=
  snapshots.insertionSort (fun left right => left.artifactType.value ≤ right.artifactType.value)

/-- Both lists have one artifact of each type by now, so none of them is left over. -/
def changed (before after : List ArtifactSnapshot) : Bool :=
  !(before.all (fun item => after.any (·.artifactType == item.artifactType)) &&
      after.all (fun item => before.any (·.artifactType == item.artifactType))) ||
    ((byType before).zip (byType after)).any fun (left, right) => left.digest != right.digest || left.version != right.version

def BindingFields.check (fields : BindingFields) : Checked Unit := do
  raiseIf (!isTaskId fields.taskId) (.own "binding task id is invalid")
  raiseIf (!positive fields.taskRevision) (.own "binding task revision must be positive")
  raiseIf (!(["record", "reopen"].contains fields.action)) (.own "binding action is invalid")
  complete "before" fields.taskRevision fields.before
  complete "after" fields.taskRevision fields.after
  hashed fields.reopenedDependents
  raiseIf (!distinct fields.reopenedDependents) (.own "reopened dependents must be unique")
  fields.reopenedDependents.forM dependent
  raiseIf (changed fields.before fields.after && fields.action != "reopen") (.own "changed artifacts require explicit reopen")
  raiseIf (fields.action == "reopen" && fields.reopenedDependents.isEmpty) (.own "reopen requires dependent task ids")

/-- Artifacts before and after a change at one task revision. One that fails its checks cannot be made. -/
structure ArtifactBinding extends BindingFields where
  checked : toBindingFields.check = .ok ()

def ArtifactBinding.make (fields : BindingFields) : Checked ArtifactBinding :=
  match checked : fields.check with
  | .ok () => .ok ⟨fields, checked⟩
  | .error raised => .error raised

def bindingNames : List String := ["task_id", "task_revision", "before", "after", "action", "reopened_dependents"]

def ArtifactBinding.asRecord (binding : ArtifactBinding) : Json :=
  .obj [("task_id", .str binding.taskId), ("task_revision", binding.taskRevision),
    ("before", .arr (binding.before.map (·.asRecord))), ("after", .arr (binding.after.map (·.asRecord))),
    ("action", .str binding.action), ("reopened_dependents", .arr binding.reopenedDependents)]

def snapshotsOf (value : Json) (key : String) : Checked (List ArtifactSnapshot) := do
  let listed ← subscript value key
  let items ← iterate listed
  items.mapM ArtifactSnapshot.fromRecord

def bindingOf (value : Json) : Checked ArtifactBinding := do
  let before ← snapshotsOf value "before"
  let after ← snapshotsOf value "after"
  let taskId ← subscript value "task_id"
  let taskRevision ← subscript value "task_revision"
  let action ← subscript value "action"
  let reopened ← subscript value "reopened_dependents"
  let reopenedDependents ← iterate reopened
  ArtifactBinding.make ⟨taskId.toText, taskRevision, before, after, action.toText, reopenedDependents⟩

/-- The messages for a binding in a record; what its reading raises otherwise is not handled. -/
def bindingErrors (value : Json) : Checked (List String) :=
  if value.isNull then .ok []
  else if !value.isObj then .ok ["artifact_binding must be an object"]
  else if !value.hasExactly bindingNames then .ok ["artifact_binding fields are incomplete or unknown"]
  else match bindingOf value with
    | .ok _ => .ok []
    | .error (.own message) => .ok ["artifact_binding invalid: " ++ message]
    | .error (.typeError message) => .ok ["artifact_binding invalid: " ++ message]
    | .error (.valueError message) => .ok ["artifact_binding invalid: " ++ message]
    | .error raised => .error raised

/-! Being a record, in whatever order of keys, and being read as one. -/

/-- The value has the fields of the record, whatever their order. -/
def ArtifactSnapshot.Records (snapshot : ArtifactSnapshot) (value : Json) : Prop :=
  value.hasExactly snapshotNames = true ∧ ∀ name ∈ snapshotNames, value.get name = snapshot.asRecord.get name

/-- The value has the fields of the record, whatever their order here and in the snapshots. -/
structure ArtifactBinding.Records (binding : ArtifactBinding) (value : Json) : Prop where
  exactly : value.hasExactly bindingNames = true
  own : ∀ name ∈ ["task_id", "task_revision", "action", "reopened_dependents"], value.get name = binding.asRecord.get name
  before : ∃ items, value.get "before" = .arr items ∧ List.Forall₂ (fun item snapshot => snapshot.Records item) items binding.before
  after : ∃ items, value.get "after" = .arr items ∧ List.Forall₂ (fun item snapshot => snapshot.Records item) items binding.after

/-- The fields of the value, converted to what a snapshot holds. -/
structure ArtifactSnapshot.Spelled (snapshot : ArtifactSnapshot) (value : Json) : Prop where
  exactly : value.hasExactly snapshotNames = true
  artifactType : (value.get "artifact_type").toText = snapshot.artifactType.value
  ref : (value.get "ref").toText = snapshot.ref
  digest : (value.get "digest").toText = snapshot.digest
  scope : (value.get "scope").toText = snapshot.scope
  taskRevision : value.get "task_revision" = snapshot.taskRevision
  version : value.get "version" = snapshot.version
  predecessors : value.get "predecessors" = .arr (snapshot.predecessors.map .str)

/-- The fields of the value, converted to what a binding holds. -/
structure ArtifactBinding.Spelled (binding : ArtifactBinding) (value : Json) : Prop where
  exactly : value.hasExactly bindingNames = true
  taskId : (value.get "task_id").toText = binding.taskId
  taskRevision : value.get "task_revision" = binding.taskRevision
  before : ∃ items, iterate (value.get "before") = .ok items ∧
    List.Forall₂ (fun item snapshot => snapshot.Spelled item) items binding.before
  after : ∃ items, iterate (value.get "after") = .ok items ∧
    List.Forall₂ (fun item snapshot => snapshot.Spelled item) items binding.after
  action : (value.get "action").toText = binding.action
  reopenedDependents : iterate (value.get "reopened_dependents") = .ok binding.reopenedDependents

/-- References and scopes are texts, and the reopened dependents are listed. -/
structure Typed (value : Json) : Prop where
  references : ∀ key ∈ ["before", "after"], ∀ item ∈ (value.get key).items,
    (item.get "ref").isStr = true ∧ (item.get "scope").isStr = true
  dependents : (value.get "reopened_dependents").isArr = true

theorem snapshot_make_eq_ok {fields : SnapshotFields} {snapshot : ArtifactSnapshot} :
    ArtifactSnapshot.make fields = .ok snapshot ↔ snapshot.toSnapshotFields = fields := by
  unfold ArtifactSnapshot.make
  split
  next checked =>
    rw [Except.ok.injEq]
    constructor
    · rintro rfl
      rfl
    · rintro rfl
      rfl
  next raised failed =>
    refine iff_of_false nofun ?_
    rintro rfl
    rw [snapshot.checked] at failed
    cases failed

theorem binding_make_eq_ok {fields : BindingFields} {binding : ArtifactBinding} :
    ArtifactBinding.make fields = .ok binding ↔ binding.toBindingFields = fields := by
  unfold ArtifactBinding.make
  split
  next checked =>
    rw [Except.ok.injEq]
    constructor
    · rintro rfl
      rfl
    · rintro rfl
      rfl
  next raised failed =>
    refine iff_of_false nofun ?_
    rintro rfl
    rw [binding.checked] at failed
    cases failed

theorem ofText_eq_ok {word : String} {kind : ArtifactType} : ArtifactType.ofText word = .ok kind ↔ word = kind.value := by
  rw [ArtifactType.ofText, orRaise_eq_ok]
  constructor
  · intro found
    have same := List.find?_some found
    exact (beq_iff_eq.mp same).symm
  · rintro rfl
    cases kind <;> decide

theorem fromRecord_eq_ok {value : Json} {snapshot : ArtifactSnapshot} :
    ArtifactSnapshot.fromRecord value = .ok snapshot ↔ snapshot.Spelled value := by
  by_cases exactly : value.hasExactly snapshotNames = true
  · have read (name : String) (listed : name ∈ snapshotNames) := subscript_of_exact exactly listed
    obtain ⟨fields, rfl⟩ : ∃ fields, value = .obj fields := Json.isObj_iff.mp (isObj_of_subscript (read "ref" (by decide)))
    rw [ArtifactSnapshot.fromRecord, setOf_obj, ok_bind, sameNames_keys, exactly, read "predecessors" (by decide), read "artifact_type" (by decide),
      read "ref" (by decide), read "digest" (by decide), read "scope" (by decide), read "task_revision" (by decide), read "version" (by decide)]
    simp only [ok_bind, raiseIf_bind_ok, orRaise_bind_ok, wrapped, mapError_eq_ok, strings?_eq_some, Bool.not_true, true_and]
    simp only [bind_eq_ok, ofText_eq_ok, snapshot_make_eq_ok]
    constructor
    · rintro ⟨predecessors, listed, kind, known, same⟩
      obtain ⟨fields_, checked⟩ := snapshot
      obtain rfl := same
      exact ⟨exactly, known, rfl, rfl, rfl, rfl, rfl, listed⟩
    · intro spelled
      refine ⟨_, spelled.predecessors, _, spelled.artifactType, ?_⟩
      rw [spelled.ref, spelled.digest, spelled.scope, spelled.taskRevision, spelled.version]
  · refine iff_of_false (fun passed => exactly ?_) (fun spelled => exactly spelled.exactly)
    obtain ⟨names, made, passed⟩ := bind_eq_ok.mp passed
    obtain ⟨same, passed⟩ := raiseIf_bind_ok.mp passed
    obtain ⟨listed, read, -⟩ := bind_eq_ok.mp passed
    obtain ⟨fields, rfl⟩ := Json.isObj_iff.mp (isObj_of_subscript read)
    rw [setOf_obj, Except.ok.injEq] at made
    rw [← made, sameNames_keys] at same
    simpa using same

theorem snapshotsOf_eq_ok {value : Json} {key : String} {snapshots : List ArtifactSnapshot}
    (exactly : value.hasExactly bindingNames = true) (listed : key ∈ bindingNames) :
    snapshotsOf value key = .ok snapshots ↔ ∃ items, iterate (value.get key) = .ok items ∧
      List.Forall₂ (fun item snapshot => snapshot.Spelled item) items snapshots := by
  rw [snapshotsOf, subscript_of_exact exactly listed, ok_bind, bind_eq_ok]
  simp only [mapM_eq_ok_iff, fromRecord_eq_ok]

theorem bindingOf_eq_ok {value : Json} {binding : ArtifactBinding} (exactly : value.hasExactly bindingNames = true) :
    bindingOf value = .ok binding ↔ binding.Spelled value := by
  have read (name : String) (listed : name ∈ bindingNames) := subscript_of_exact exactly listed
  rw [bindingOf, read "task_id" (by decide), read "task_revision" (by decide), read "action" (by decide), read "reopened_dependents" (by decide)]
  simp only [ok_bind, bind_eq_ok, binding_make_eq_ok, snapshotsOf_eq_ok exactly (show "before" ∈ bindingNames by decide),
    snapshotsOf_eq_ok exactly (show "after" ∈ bindingNames by decide)]
  constructor
  · rintro ⟨before, first, after, second, reopened, iterated, same⟩
    obtain ⟨fields, checked⟩ := binding
    obtain rfl := same
    exact ⟨exactly, rfl, rfl, first, second, rfl, iterated⟩
  · intro spelled
    refine ⟨_, spelled.before, _, spelled.after, _, spelled.reopenedDependents, ?_⟩
    rw [spelled.taskId, spelled.taskRevision, spelled.action]

/-! Which texts only a text is converted to. -/

/-- Characters with which the printed form of a value begins that is not a text. -/
def opens (c : Char) : Bool := Text.isDigit c || "NTF-[\x7b".toList.contains c

def Opens (cs : List Char) : Prop := ∃ c rest, cs = c :: rest ∧ opens c = true

theorem opens_digits (n : Nat) : ∃ c rest, (toString n).toList = c :: rest ∧ Text.isDigit c = true := by
  have digits : (toString n).toList = Nat.toDigits 10 n := Nat.toList_repr
  rw [digits]
  cases spelled : Nat.toDigits 10 n with
  | nil => exact absurd spelled Nat.toDigits_ne_nil
  | cons c rest => exact ⟨c, rest, rfl, JsonText.isDigit_toDigits (by rw [spelled]; exact List.mem_cons_self)⟩

theorem opens_float (mantissa exponent : Int) : Opens (Json.floatText mantissa exponent).toList := by
  obtain ⟨c, rest, digits, digit⟩ := opens_digits mantissa.natAbs
  have first : opens c = true := by rw [opens, digit, Bool.true_or]
  rw [Json.floatText, JsonText.floatText_toList, digits]
  dsimp only
  by_cases negative : mantissa < 0
  · rw [if_pos (decide_eq_true negative)]
    exact ⟨'-', _, rfl, by decide⟩
  rw [if_neg (by simpa using negative), List.nil_append]
  split_ifs with zero fixed small whole
  · exact ⟨'0', _, rfl, by decide⟩
  · exact ⟨'0', _, rfl, by decide⟩
  · exact ⟨c, _, rfl, first⟩
  · obtain ⟨count, more⟩ : ∃ count, (((c :: rest).length : Int) + exponent).toNat = count + 1 :=
      ⟨(((c :: rest).length : Int) + exponent).toNat - 1, by omega⟩
    rw [more]
    exact ⟨c, _, rfl, first⟩
  all_goals exact ⟨c, _, rfl, first⟩

theorem bracketed (c : Char) (inner after : String) :
    (String.ofList [c] ++ inner ++ after).toList = c :: (inner.toList ++ after.toList) := by
  rw [String.toList_append, String.toList_append, String.toList_ofList]
  rfl

theorem opens_toText {value : Json} (other : value.isStr = false) : Opens value.toText.toList := by
  cases value with
  | null => exact ⟨'N', _, rfl, by decide⟩
  | bool flag => cases flag <;> exact ⟨_, _, rfl, by decide⟩
  | int number =>
    cases number with
    | ofNat n =>
      obtain ⟨c, rest, digits, digit⟩ := opens_digits n
      exact ⟨c, rest, digits, by rw [opens, digit, Bool.true_or]⟩
    | negSucc n =>
      have digits : (toString (Int.negSucc n)).toList = '-' :: (Nat.repr (n + 1)).toList := String.toList_append
      exact ⟨'-', _, digits, by decide⟩
  | float mantissa exponent => exact opens_float mantissa exponent
  | str word => cases other
  | arr items => exact ⟨'[', _, bracketed _ _ _, by decide⟩
  | obj fields => exact ⟨'\x7b', _, bracketed _ _ _, by decide⟩

/-- A text that begins otherwise is the conversion of itself only. -/
theorem eq_str_of_toText {value : Json} {word : String} (same : value.toText = word) {c : Char} {rest : List Char}
    (spelled : word.toList = c :: rest) (closed : opens c = false) : value = .str word := by
  cases texts : value.isStr with
  | true =>
    obtain ⟨own, rfl⟩ := Json.isStr_iff.mp texts
    rw [← same, Json.toText_str]
  | false =>
    obtain ⟨first, others, split, opened⟩ := opens_toText texts
    rw [same, spelled] at split
    cases split
    rw [closed] at opened
    cases opened

theorem stripPrefix_spelled {lead : List Char} {c : Char} {rest cs after : List Char} (known : lead = c :: rest)
    (stripped : Text.stripPrefix? lead cs = some after) : ∃ others, cs = c :: others := by
  subst known
  cases cs with
  | nil => cases stripped
  | cons d others =>
    rw [Text.stripPrefix?, Option.ite_none_right_eq_some] at stripped
    exact ⟨others, by rw [stripped.1]⟩

theorem digest_spelled {word : String} (hex : Text.isDigest word = true) : ∃ rest, word.toList = 's' :: rest := by
  rw [Text.isDigest, Text.characters_eq, Text.characters_eq] at hex
  split at hex
  next rest stripped => exact stripPrefix_spelled (show "sha256:".toList = 's' :: "ha256:".toList by decide) stripped
  next => cases hex

theorem taskId_spelled {word : String} (task : isTaskId word = true) : ∃ rest, word.toList = 'A' :: rest := by
  unfold isTaskId at task
  split at task
  next rest stripped => exact stripPrefix_spelled (show "AR-".toList = 'A' :: "R-".toList by decide) stripped
  next => cases task

theorem artifactType_spelled {value : Json} {kind : ArtifactType} (same : value.toText = kind.value) : value = .str kind.value := by
  cases kind <;> exact eq_str_of_toText same (by rfl) (by decide)

/-! What the checks say of fields that are converted. -/

theorem ArtifactSnapshot.digest_hex (snapshot : ArtifactSnapshot) : Text.isDigest snapshot.digest = true := by
  have checked := snapshot.checked
  simp only [SnapshotFields.check, Artifacts.publicRef, Artifacts.digest, raiseIf_bind_ok, Bool.not_eq_false'] at checked
  exact checked.2.1

theorem ArtifactBinding.taskId_shape (binding : ArtifactBinding) : isTaskId binding.taskId = true := by
  have checked := binding.checked
  simp only [BindingFields.check, raiseIf_bind_ok, Bool.not_eq_false'] at checked
  exact checked.1

theorem ArtifactBinding.action_listed (binding : ArtifactBinding) : binding.action = "record" ∨ binding.action = "reopen" := by
  have checked := binding.checked
  simp only [BindingFields.check, raiseIf_bind_ok, Bool.not_eq_false', List.contains_iff_mem] at checked
  simpa using checked.2.2.1

theorem action_spelled {value : Json} {action : String} (listed : action = "record" ∨ action = "reopen")
    (same : value.toText = action) : value = .str action := by
  obtain rfl | rfl := listed
  · exact eq_str_of_toText same (show "record".toList = 'r' :: "ecord".toList by decide) (by decide)
  · exact eq_str_of_toText same (show "reopen".toList = 'r' :: "eopen".toList by decide) (by decide)

/-- A snapshot that is read from texts is read from its record. -/
theorem ArtifactSnapshot.Spelled.records {snapshot : ArtifactSnapshot} {value : Json} (spelled : snapshot.Spelled value)
    (ref : (value.get "ref").isStr = true) (scope : (value.get "scope").isStr = true) : snapshot.Records value := by
  obtain ⟨rest, digest⟩ := digest_spelled snapshot.digest_hex
  obtain ⟨word, ref⟩ := Json.isStr_iff.mp ref
  obtain ⟨other, scope⟩ := Json.isStr_iff.mp scope
  have same_ref := spelled.ref
  have same_scope := spelled.scope
  rw [ref, Json.toText_str] at same_ref
  rw [scope, Json.toText_str] at same_scope
  subst same_ref same_scope
  refine ⟨spelled.exactly, ?_⟩
  simp only [snapshotNames, List.forall_mem_cons, List.not_mem_nil, false_imp_iff, implies_true, and_true]
  exact ⟨artifactType_spelled spelled.artifactType, ref, eq_str_of_toText spelled.digest digest (by decide), scope,
    spelled.taskRevision, spelled.version, spelled.predecessors⟩

theorem ArtifactSnapshot.Records.spelled {snapshot : ArtifactSnapshot} {value : Json} (records : snapshot.Records value) :
    snapshot.Spelled value := by
  obtain ⟨exactly, fields⟩ := records
  have field (name : String) (listed : name ∈ snapshotNames) := fields name listed
  exact {
    exactly := exactly
    artifactType := congrArg Json.toText (field "artifact_type" (by decide))
    ref := congrArg Json.toText (field "ref" (by decide))
    digest := congrArg Json.toText (field "digest" (by decide))
    scope := congrArg Json.toText (field "scope" (by decide))
    taskRevision := field "task_revision" (by decide)
    version := field "version" (by decide)
    predecessors := field "predecessors" (by decide) }

theorem ArtifactSnapshot.Records.texts {snapshot : ArtifactSnapshot} {value : Json} (records : snapshot.Records value) :
    (value.get "ref").isStr = true ∧ (value.get "scope").isStr = true := by
  rw [records.2 "ref" (by decide), records.2 "scope" (by decide)]
  exact ⟨rfl, rfl⟩

theorem iterate_items {value : Json} {items : List Json} (iterated : iterate value = .ok items) (list : value.isArr = true) :
    value = .arr items := by
  obtain ⟨own, rfl⟩ := Json.isArr_iff.mp list
  cases iterated
  rfl

/-- Snapshots are read from objects, so nothing else than a list has been iterated over. -/
theorem iterate_snapshots {value : Json} {items : List Json} {snapshots : List ArtifactSnapshot} (iterated : iterate value = .ok items)
    (spelled : List.Forall₂ (fun item snapshot => ArtifactSnapshot.Spelled snapshot item) items snapshots) (some_ : snapshots ≠ []) :
    value = .arr items := by
  cases spelled with
  | nil => exact absurd rfl some_
  | cons first rest =>
    have object := first.exactly
    cases value with
    | arr own => exact iterate_items iterated rfl
    | str word =>
      cases chars : word.toList with
      | nil =>
        rw [iterate, chars] at iterated
        cases iterated
      | cons c others =>
        rw [iterate, chars] at iterated
        cases iterated
        cases object
    | obj fields =>
      cases fields with
      | nil => cases iterated
      | cons entry others =>
        cases iterated
        cases object
    | _ => cases iterated

theorem ArtifactBinding.some_snapshots (binding : ArtifactBinding) : binding.before ≠ [] ∧ binding.after ≠ [] := by
  have checked := binding.checked
  simp only [BindingFields.check, complete, bind_eq_ok, exists_unit] at checked
  obtain ⟨-, -, -, ⟨before, -⟩, ⟨after, -⟩, -⟩ := checked
  constructor
  · intro none_
    rw [none_] at before
    cases before
  · intro none_
    rw [none_] at after
    cases after

/-- A binding that is read from a typed value is read from its record. -/
theorem ArtifactBinding.Spelled.records {binding : ArtifactBinding} {value : Json} (spelled : binding.Spelled value)
    (typed : Typed value) : binding.Records value := by
  obtain ⟨rest, taskId⟩ := taskId_spelled binding.taskId_shape
  have side {key : String} {snapshots : List ArtifactSnapshot} (listed : key ∈ ["before", "after"]) (some_ : snapshots ≠ [])
      (read : ∃ items, iterate (value.get key) = .ok items ∧
        List.Forall₂ (fun item snapshot => ArtifactSnapshot.Spelled snapshot item) items snapshots) :
      ∃ items, value.get key = .arr items ∧
        List.Forall₂ (fun item snapshot => ArtifactSnapshot.Records snapshot item) items snapshots := by
    obtain ⟨items, iterated, each⟩ := read
    have list := iterate_snapshots iterated each some_
    refine ⟨items, list, List.forall₂_iff_get.mpr ⟨each.length_eq, fun i inside own => ?_⟩⟩
    have texts := typed.references key listed (items.get ⟨i, inside⟩) (by rw [list]; exact List.get_mem ..)
    exact (each.get inside own).records texts.1 texts.2
  exact {
    exactly := spelled.exactly
    own := by
      simp only [List.forall_mem_cons, List.not_mem_nil, false_imp_iff, implies_true, and_true]
      exact ⟨eq_str_of_toText spelled.taskId taskId (by decide), spelled.taskRevision,
        action_spelled binding.action_listed spelled.action, iterate_items spelled.reopenedDependents typed.dependents⟩
    before := side (by decide) binding.some_snapshots.1 spelled.before
    after := side (by decide) binding.some_snapshots.2 spelled.after }

theorem ArtifactBinding.Records.spelled {binding : ArtifactBinding} {value : Json} (records : binding.Records value) :
    binding.Spelled value := by
  have field (name : String) (listed : name ∈ ["task_id", "task_revision", "action", "reopened_dependents"]) :=
    records.own name listed
  have side {key : String} {snapshots : List ArtifactSnapshot} (read : ∃ items, value.get key = .arr items ∧
      List.Forall₂ (fun item snapshot => ArtifactSnapshot.Records snapshot item) items snapshots) :
      ∃ items, iterate (value.get key) = .ok items ∧
        List.Forall₂ (fun item snapshot => ArtifactSnapshot.Spelled snapshot item) items snapshots := by
    obtain ⟨items, list, each⟩ := read
    exact ⟨items, by rw [list]; rfl, each.imp fun _ _ records => records.spelled⟩
  exact {
    exactly := records.exactly
    taskId := congrArg Json.toText (field "task_id" (by decide))
    taskRevision := field "task_revision" (by decide)
    before := side records.before
    after := side records.after
    action := congrArg Json.toText (field "action" (by decide))
    reopenedDependents := congrArg iterate (field "reopened_dependents" (by decide)) }

theorem ArtifactBinding.Records.typed {binding : ArtifactBinding} {value : Json} (records : binding.Records value) : Typed value where
  references := by
    have side {key : String} {snapshots : List ArtifactSnapshot} (read : ∃ items, value.get key = .arr items ∧
        List.Forall₂ (fun item snapshot => ArtifactSnapshot.Records snapshot item) items snapshots) :
        ∀ item ∈ (value.get key).items, (item.get "ref").isStr = true ∧ (item.get "scope").isStr = true := by
      obtain ⟨items, list, each⟩ := read
      intro item member
      rw [list] at member
      obtain ⟨i, inside, rfl⟩ := List.mem_iff_getElem.mp member
      exact (each.get inside (each.length_eq ▸ inside)).texts
    simp only [List.forall_mem_cons, List.not_mem_nil, false_imp_iff, implies_true, and_true]
    exact ⟨side records.before, side records.after⟩
  dependents := by
    rw [records.own "reopened_dependents" (by decide)]
    rfl

/-! What is raised on the way. -/

/-- The exceptions that the reading of a binding turns into messages. -/
def Handled : Raised → Prop
  | .keyError _ => False
  | _ => True

theorem subscript_handled {value : Json} {names : List String} {key : String}
    (exactly : value.isObj = true → value.hasExactly names = true) (listed : key ∈ names) : Raises Handled (subscript value key) := by
  cases value with
  | obj fields =>
    rw [subscript_of_exact (exactly rfl) listed]
    exact .ok _
  | _ => exact .error trivial

theorem wrapped_handled {α : Type} {x : Checked α} (handled : Raises Handled x) : Raises Handled (wrapped x) := by
  intro raised failed
  cases x with
  | ok value => cases failed
  | error own =>
    have fine := handled own rfl
    cases own with
    | keyError key => cases fine
    | _ =>
      cases failed
      trivial

theorem check_handled (fields : SnapshotFields) : Raises Handled fields.check :=
  .bind (.raiseIf trivial) fun _ _ => .bind (.raiseIf trivial) fun _ _ => .bind (.raiseIf trivial) fun _ _ =>
    .bind (.raiseIf trivial) fun _ _ => .bind (.raiseIf trivial) fun _ _ => .bind (.raiseIf trivial) fun _ _ =>
      .forM fun _ _ => .raiseIf trivial

theorem complete_handled (label : String) (taskRevision : Json) (snapshots : List ArtifactSnapshot) :
    Raises Handled (complete label taskRevision snapshots) :=
  .bind (.raiseIf trivial) fun _ _ => .bind (.raiseIf trivial) fun _ _ => .bind (.raiseIf trivial) fun _ _ => .raiseIf trivial

theorem dependent_handled (value : Json) : Raises Handled (dependent value) := by
  cases value with
  | str word => exact .raiseIf trivial
  | _ => exact .error trivial

theorem binding_check_handled (fields : BindingFields) : Raises Handled fields.check :=
  .bind (.raiseIf trivial) fun _ _ => .bind (.raiseIf trivial) fun _ _ => .bind (.raiseIf trivial) fun _ _ =>
    .bind (complete_handled _ _ _) fun _ _ => .bind (complete_handled _ _ _) fun _ _ =>
      .bind (.hashed _ fun _ => trivial) fun _ _ => .bind (.raiseIf trivial) fun _ _ =>
        .bind (.forM fun value _ => dependent_handled value) fun _ _ => .bind (.raiseIf trivial) fun _ _ => .raiseIf trivial

theorem snapshot_make_handled (fields : SnapshotFields) : Raises Handled (ArtifactSnapshot.make fields) := by
  unfold ArtifactSnapshot.make
  split
  next => exact .ok _
  next raised failed => exact .error (check_handled fields raised failed)

theorem binding_make_handled (fields : BindingFields) : Raises Handled (ArtifactBinding.make fields) := by
  unfold ArtifactBinding.make
  split
  next => exact .ok _
  next raised failed => exact .error (binding_check_handled fields raised failed)

theorem fromRecord_handled (value : Json) : Raises Handled (ArtifactSnapshot.fromRecord value) := by
  refine .bind (.bind (.iterate _ fun _ => trivial) fun _ _ => .bind (.hashed _ fun _ => trivial) fun _ _ => .ok _) fun names made =>
    .bind (.raiseIf trivial) fun _ passed => ?_
  have exactly : value.isObj = true → value.hasExactly snapshotNames = true := by
    intro object
    obtain ⟨fields, rfl⟩ := Json.isObj_iff.mp object
    rw [setOf_obj, Except.ok.injEq] at made
    rw [raiseIf_eq_ok, ← made, sameNames_keys] at passed
    simpa using passed
  have read {name : String} (listed : name ∈ snapshotNames) := subscript_handled exactly listed
  refine .bind (read (by decide)) fun _ _ => .bind (.orRaise trivial) fun _ _ => wrapped_handled ?_
  exact .bind (read (by decide)) fun _ _ => .bind (.orRaise trivial) fun _ _ => .bind (read (by decide)) fun _ _ =>
    .bind (read (by decide)) fun _ _ => .bind (read (by decide)) fun _ _ => .bind (read (by decide)) fun _ _ =>
      .bind (read (by decide)) fun _ _ => snapshot_make_handled _

theorem bindingOf_handled {value : Json} (exactly : value.hasExactly bindingNames = true) : Raises Handled (bindingOf value) := by
  have read {name : String} (listed : name ∈ bindingNames) := subscript_handled (fun _ => exactly) listed
  have side {name : String} (listed : name ∈ bindingNames) : Raises Handled (snapshotsOf value name) :=
    .bind (read listed) fun _ _ => .bind (.iterate _ fun _ => trivial) fun _ _ => .mapM fun item _ => fromRecord_handled item
  exact .bind (side (by decide)) fun _ _ => .bind (side (by decide)) fun _ _ => .bind (read (by decide)) fun _ _ =>
    .bind (read (by decide)) fun _ _ => .bind (read (by decide)) fun _ _ => .bind (read (by decide)) fun _ _ =>
      .bind (.iterate _ fun _ => trivial) fun _ _ => binding_make_handled _

/-- No value makes the validation raise. -/
theorem bindingErrors_returns (value : Json) : ∃ errors, bindingErrors value = .ok errors := by
  unfold bindingErrors
  split_ifs with null other inexact
  · exact ⟨_, rfl⟩
  · exact ⟨_, rfl⟩
  · exact ⟨_, rfl⟩
  · have handled := bindingOf_handled (by simpa using inexact)
    cases read : bindingOf value with
    | ok binding => exact ⟨_, rfl⟩
    | error raised =>
      cases raised with
      | keyError key => exact (handled _ read).elim
      | _ => exact ⟨_, rfl⟩

theorem bindingErrors_eq_nil {value : Json} (some_ : value ≠ .null) :
    bindingErrors value = .ok [] ↔ ∃ binding : ArtifactBinding, binding.Spelled value := by
  have known : value.isNull = false := by
    rw [Bool.eq_false_iff, Ne, Json.isNull_iff]
    exact some_
  rw [bindingErrors, known, if_neg Bool.false_ne_true]
  by_cases exactly : value.hasExactly bindingNames = true
  · have object : value.isObj = true := by
      simp only [Json.hasExactly, Bool.and_eq_true] at exactly
      exact exactly.1.1
    rw [object, exactly, Bool.not_true, if_neg Bool.false_ne_true, if_neg Bool.false_ne_true]
    simp only [← bindingOf_eq_ok exactly]
    cases bindingOf value with
    | ok binding => exact iff_of_true rfl ⟨binding, rfl⟩
    | error raised => cases raised <;> exact iff_of_false (by rintro ⟨⟩) (by rintro ⟨_, ⟨⟩⟩)
  · refine iff_of_false ?_ (by rintro ⟨binding, spelled⟩; exact exactly spelled.exactly)
    rw [Bool.eq_false_iff.mpr exactly]
    split <;> rintro ⟨⟩

/-- Validation always answers, and it finds no error in exactly the records of bindings as far as references and scopes are
texts and the reopened dependents are listed, or conversion makes no binding of the value anyway. -/
theorem binding_errors_exact (value : Json) (some_ : value ≠ .null) :
    (∃ errors, bindingErrors value = .ok errors) ∧
      ((bindingErrors value = .ok [] ↔ ∃ binding : ArtifactBinding, binding.Records value) ↔
        (Typed value ∨ ¬∃ binding : ArtifactBinding, binding.Spelled value)) := by
  refine ⟨bindingErrors_returns value, ?_⟩
  rw [bindingErrors_eq_nil some_]
  constructor
  · intro exact_
    by_cases spelled : ∃ binding : ArtifactBinding, binding.Spelled value
    · obtain ⟨binding, records⟩ := exact_.mp spelled
      exact .inl records.typed
    · exact .inr spelled
  · rintro (typed | not_)
    · exact ⟨fun ⟨binding, spelled⟩ => ⟨binding, spelled.records typed⟩, fun ⟨binding, records⟩ => ⟨binding, records.spelled⟩⟩
    · exact iff_of_false not_ fun ⟨binding, records⟩ => not_ ⟨binding, records.spelled⟩

def sampleSnapshot (ref : Json) (kind : ArtifactType) : Json :=
  .obj [("artifact_type", .str kind.value), ("ref", ref), ("digest", .str ("sha256:" ++ String.ofList (List.replicate 64 'a'))),
    ("scope", .str "src"), ("task_revision", .int 1), ("version", .int 1), ("predecessors", .arr [])]

def sampleBinding (ref reopened : Json) : Json :=
  .obj [("task_id", .str "AR-0001"), ("task_revision", .int 1), ("before", .arr (artifactTypes.map (sampleSnapshot ref))),
    ("after", .arr (artifactTypes.map (sampleSnapshot ref))), ("action", .str "record"), ("reopened_dependents", reopened)]

theorem sample_binding_exact : bindingErrors (sampleBinding (.str "docs/plan.md") (.arr [])) = .ok [] ∧
    ∃ binding : ArtifactBinding, binding.Records (sampleBinding (.str "docs/plan.md") (.arr [])) := by
  have accepted : bindingErrors (sampleBinding (.str "docs/plan.md") (.arr [])) = .ok [] := by decide +kernel
  have typed : Typed (sampleBinding (.str "docs/plan.md") (.arr [])) := ⟨by decide +kernel, rfl⟩
  exact ⟨accepted, ((binding_errors_exact (sampleBinding (.str "docs/plan.md") (.arr [])) nofun).2.mpr (.inl typed)).mp accepted⟩

/-- A number is accepted for a reference, and an object for the dependents. -/
theorem converted_fields_accepted :
    (bindingErrors (sampleBinding (.int 5) (.arr [])) = .ok [] ∧
      ¬∃ binding : ArtifactBinding, binding.Records (sampleBinding (.int 5) (.arr []))) ∧
    bindingErrors (sampleBinding (.str "docs/plan.md") (.obj [])) = .ok [] ∧
      ¬∃ binding : ArtifactBinding, binding.Records (sampleBinding (.str "docs/plan.md") (.obj [])) := by
  refine ⟨⟨by decide +kernel, fun ⟨binding, records⟩ => ?_⟩, by decide +kernel, fun ⟨binding, records⟩ => ?_⟩
  · have texts := records.typed.references "before" (by decide) (sampleSnapshot (.int 5) .workPlan) List.mem_cons_self
    exact absurd texts.1 Bool.false_ne_true
  · exact absurd records.typed.dependents Bool.false_ne_true

end Coordinator.Artifacts
