import Coordinator.EnvelopeNarrowing

/-! Which values the validator of envelopes reads to the end, and what admission and replacement then rely on. Here every
access raises as the interpreter does when the value has another type. -/

namespace Coordinator.ExecutionEnvelope
open Kit

/-- What an operation raises: an error that it reports, or the interpreter's for a value that it cannot use. -/
inductive Raised where
  | reported (message : String)
  | crashed (message : String)

abbrev Checked (α : Type) := Except Raised α

/-- The entry of an object under a key. -/
def subscript (value : Json) (key : String) : Checked Json :=
  match value with
  | .obj fields => orRaise (Dict.find key fields) (.crashed ("KeyError: '" ++ key ++ "'"))
  | _ => .error (.crashed "TypeError: indices must be integers")

/-- The entry of an object under a key, or a default. -/
def getOr (value : Json) (key : String) (default : Json) : Checked Json :=
  match value with
  | .obj fields => pure ((Dict.find key fields).getD default)
  | _ => .error (.crashed "AttributeError: no attribute 'get'")

/-- The keys of an object with their entries. -/
def entriesOf : Json → Checked Dict
  | .obj fields => pure ((Dict.keys fields).map (fun key => (key, Dict.get fields key)))
  | _ => .error (.crashed "AttributeError: no attribute 'items'")

/-- The elements that a set of a value holds. -/
def setOf (value : Json) : Checked (List Json) := do
  let items ← orRaise (match value with
    | .arr items => some items
    | .obj entries => some ((Dict.keys entries).map .str)
    | .str word => some (word.toList.map (fun c => .str (String.ofList [c])))
    | _ => none) (.crashed "TypeError: object is not iterable")
  raiseIf (!items.all hashable) (.crashed "TypeError: unhashable type")
  pure items

def memberOf (key : String) : Json → Checked Bool
  | .obj fields => pure (Dict.has fields key)
  | .arr items => pure (items.any (· == .str key))
  | .str word => pure (Text.occursIn key word)
  | _ => .error (.crashed "TypeError: argument is not iterable")

/-! Admission. -/

/-- Whether the first of the bound fields differs from the task's, and so on. -/
def differs (task : Meta) (envelope : Json) : List (String × String) → Checked Bool
  | [] => pure false
  | (name, field) :: rest => do
      let found ← subscript envelope name
      if found != task.get field then pure true else differs task envelope rest

def boundChecked (task : Meta) : Checked (Except Preflight Json) := do
  let envelope := task.get "execution_envelope"
  if !(task.get "execution_envelope_ref").isStr || !envelope.isObj then
    pure (.error (denied "ENVELOPE_MISSING" "task has no bound execution envelope"))
  else do
    let found ← orRaise (errors envelope) (.crashed "TypeError: unhashable type")
    if !found.isEmpty then pure (.error (denied "ENVELOPE_INVALID" (Text.joined "; " found)))
    else if task.get "execution_envelope_digest" != .str (canonicalDigest envelope) then
      pure (.error (denied "ENVELOPE_DIGEST_MISMATCH" "bound envelope data changed"))
    else do
      let other ← differs task envelope
        [("task", "id"), ("envelope_revision", "execution_envelope_revision"),
          ("task_revision", "execution_envelope_task_revision"), ("spec_ref", "spec_ref"), ("spec_revision", "spec_revision")]
      pure (if other then .error (denied "ENVELOPE_REVISION_MISMATCH" "envelope does not match durable task specification")
        else .ok envelope)

def classChecked (envelope : Json) (command : String) : Checked Bool :=
  if !commandClasses.contains command then pure false
  else do
    let classes ← subscript envelope "command_classes"
    let listed ← memberOf command classes
    if !listed then pure false
    else do
      let rule ← subscript classes command
      let allowed ← subscript rule "allowed"
      pure allowed.truthy

/-- The scopes for one access as texts; any other value has no slashes to strip. -/
def scopesChecked (envelope : Json) (access : String) : Checked (List String) := do
  let scope ← subscript envelope "path_scope"
  let allowed ← subscript scope access
  let items ← setOf allowed
  items.mapM fun item =>
    match item with
    | .str word => pure word
    | _ => .error (.crashed "AttributeError: no attribute 'rstrip'")

def scopeChecked (envelope : Json) (command : String) (paths : List String) (roots : Roots) : Checked (Option Preflight) :=
  if mutating command && paths.isEmpty then
    pure (some (denied "SCOPE_DECLARATION_REQUIRED" "mutating command classes require --scope-path"))
  else do
    let scopes ← scopesChecked envelope (if mutating command then "write" else "read")
    pure (paths.findSome? (declaredDenial command scopes roots))

/-- What the content of an envelope denies. -/
def contentChecked (envelope : Json) (launch : Launch) (roots : Roots) : Checked (Option Preflight) := do
  let allowed ← classChecked envelope launch.command
  if !allowed then pure (some (denied "COMMAND_CLASS_DENIED" "command class is not allowed by the envelope"))
  else match capabilityDenial envelope launch.command launch.authorize with
    | some denial => pure (some denial)
    | none => scopeChecked envelope launch.command launch.paths roots

def asCrash : Fault → Raised
  | .error message => .crashed message
  | .replay message => .crashed message

def asReport : Fault → Raised
  | .error message => .reported message
  | .replay message => .reported message

def claimChecked (world : Moment) (task : Meta) (ownerId : String) (launch : Launch) (roots : Roots) (envelope : Json) :
    Checked Preflight :=
  if owner task != .str ownerId || status task != .str "in_progress" then
    pure (denied "OWNER_CLAIM_REQUIRED" "active durable owner claim is required")
  else do
    let lapsed ← (leaseDenial world task).mapError asCrash
    match lapsed with
    | some denial => pure denial
    | none => do
        let answer ← contentChecked envelope launch roots
        match answer with
        | some denial => pure denial
        | none => do
            let envelopeId ← subscript envelope "envelope_id"
            pure { allowed := true, code := "ALLOWED", detail := "durable envelope admission passed",
                   envelopeId := envelopeId.text, envelopeDigest := (task.get "execution_envelope_digest").toText }

def preflightChecked (world : Moment) (task : Meta) (ownerId : String) (launch : Launch) (product : Tree) (state : Option Tree)
    (source : Option (Except String Tree)) : Checked Preflight :=
  match source with
  | some (.error reason) => pure (denied "PATH_SCOPE_UNAVAILABLE" reason)
  | _ => do
      let bound ← boundChecked task
      match bound with
      | .error denial => pure denial
      | .ok envelope => claimChecked world task ownerId launch ⟨product, state, source.bind Except.toOption⟩ envelope

/-! Replacement. -/

/-- A limit is longer than the one before, which may be any number. -/
def exceeds (limit : Int) : Json → Checked Bool
  | .int prior => pure (decide (prior < limit))
  | .bool prior => pure (decide ((if prior then 1 else 0) < limit))
  | .float mantissa exponent => pure (decide (mantissa * 10 ^ exponent.toNat < limit * 10 ^ (-exponent).toNat))
  | _ => .error (.crashed "TypeError: '>' not supported between these types")

def widens (narrow wide : List Json) : Bool := !narrow.all (fun item => wide.any (· == item))

def checkScopes (old envelope : Json) : List String → Checked Unit
  | [] => pure ()
  | access :: rest => do
      let narrow ← subscript (← subscript envelope "path_scope") access >>= setOf
      let wide ← subscript (← subscript old "path_scope") access >>= setOf
      raiseIf (widens narrow wide) (.reported "replace-envelope cannot widen path scope")
      checkScopes old envelope rest

/-- What was allowed before, which only a rule that allows asks for. -/
def askBefore (allowed : Json) (before : Checked Json) : Checked Json := if allowed.truthy then before else pure (.bool true)

def checkRules (old : Json) : List (String × Json) → Checked Unit
  | [] => pure ()
  | (name, rule) :: rest => do
      let prior ← getOr (← subscript old "command_classes") name (.obj [("allowed", .bool false)])
      let allowed ← getOr rule "allowed" .null
      let before ← askBefore allowed (getOr prior "allowed" (.bool false))
      raiseIf (!before.truthy) (.reported "replace-envelope cannot widen command classes")
      let limit ← getOr prior "timeout_seconds" (.int (timeoutOf rule))
      let longer ← exceeds (timeoutOf rule) limit
      raiseIf longer (.reported "replace-envelope cannot widen command timeout")
      checkRules old rest

def checkRights (old : Json) : List (String × Json) → Checked Unit
  | [] => pure ()
  | (name, rule) :: rest => do
      let allowed ← getOr rule "allowed" .null
      let before ← askBefore allowed (do
        let prior ← getOr (← getOr old "capabilities" (.obj [])) name (.obj [])
        getOr prior "allowed" (.bool false))
      raiseIf (!before.truthy) (.reported "replace-envelope cannot widen capabilities")
      checkRights old rest

/-- Both envelopes have one reference or, where the references differ, one identifier. -/
def sameEnvelope (sameRef : Bool) (old envelope : Json) : Checked Bool :=
  if sameRef then pure true
  else do
    let envelopeId ← subscript envelope "envelope_id"
    let before ← subscript old "envelope_id"
    pure (envelopeId == before)

def replaceChecked (task : Meta) (request : Request) (read : Reader) (replacedAt : String) : Checked (Meta × String) := do
  let old := task.get "execution_envelope"
  raiseIf (!old.isObj) (.reported "replace-envelope requires an existing bound execution envelope")
  let oldRef := task.get "execution_envelope_ref"
  let oldRevision := task.get "execution_envelope_revision"
  let oldTaskRevision := task.get "execution_envelope_task_revision"
  let oldDigest := task.get "execution_envelope_digest"
  raiseIf (!(oldRef.isStr && oldRevision.exactInt?.isSome && oldTaskRevision.exactInt?.isSome && oldDigest.isStr))
    (.reported "replace-envelope requires a coherent existing binding")
  let (loaded, found) ← (load read request.envelopeRef).mapError asCrash
  raiseIf (!found.isEmpty || loaded.isNone)
    (.reported ("replace-envelope envelope is invalid: " ++ Text.joined "; " found))
  let envelope := loaded.getD .null
  raiseIf (envelope.get "task" != .str request.task || envelope.get "spec_ref" != task.get "spec_ref")
    (.reported "replace-envelope envelope task or spec does not match")
  raiseIf (envelope.get "task_revision" != task.get "task_revision" ||
      envelope.get "spec_revision" != task.get "spec_revision")
    (.reported "replace-envelope envelope revision does not match task specification")
  raiseIf (envelope.get "envelope_revision" != .int request.envelopeRevision)
    (.reported "replace-envelope envelope revision does not match")
  let actualDigest := canonicalDigest envelope
  let same ← sameEnvelope (oldRef == .str request.envelopeRef) old envelope
  raiseIf same (.reported "replace-envelope requires a distinct successor envelope")
  raiseIf (some request.envelopeRevision != oldRevision.exactInt?.map (· + 1) || oldDigest == .str actualDigest)
    (.reported "replace-envelope successor revision or bytes are invalid")
  checkScopes old envelope ["read", "write"]
  let classes ← subscript envelope "command_classes" >>= entriesOf
  checkRules old classes
  let rights ← getOr envelope "capabilities" (.obj []) >>= entriesOf
  checkRights old rights
  let goals ← getOr old "non_goals" (.arr []) >>= setOf
  let kept ← getOr envelope "non_goals" (.arr []) >>= setOf
  raiseIf (widens goals kept) (.reported "replace-envelope cannot remove non-goals")
  let history := task.get "execution_envelope_replacements"
  raiseIf (task.has "execution_envelope_replacements" && !history.isArr)
    (.reported "replace-envelope replacement evidence is invalid")
  let replacement : Json := .obj
    [("old_ref", oldRef), ("old_revision", oldRevision), ("old_task_revision", oldTaskRevision),
      ("old_digest", oldDigest), ("new_ref", .str request.envelopeRef),
      ("new_revision", .int request.envelopeRevision), ("new_digest", .str actualDigest),
      ("replaced_at", .str replacedAt)]
  pure (bind (task.set "execution_envelope_replacements" (.arr (history.items ++ [replacement]))) request envelope,
    "Replaced execution envelope " ++ oldRef.text ++ " with " ++ request.envelopeRef ++ " revision " ++
      toString request.envelopeRevision ++ ".")

/-! Which values are read to the end. -/

/-- A loop over a field, if the value has it, has something to visit. -/
def Iterable (value : Json) (name : String) : Prop := (iterate value name).isSome = true

/-- A stop condition that is looked at as far as its kind. -/
def shaped (item : Json) : Bool :=
  item.hasExactly ["id", "kind"] && (item.get "id").isStr && isItemId (item.get "id").text

/-- What the validator needs of an object: fields that it can iterate, scopes and kinds of stop conditions that a set can
hold, the latter up to the first invalid condition. -/
structure Readable (value : Json) : Prop where
  outputs : Iterable value "outputs"
  evidence : Iterable value "evidence"
  scopes : (value.get "path_scope").hasExactly ["read", "write"] = true → ∀ access ∈ ["read", "write"],
    ((value.get "path_scope").get access).items.length ≤ 64 → ∀ item ∈ ((value.get "path_scope").get access).items,
      hashable item = true
  stops : (value.get "stop_conditions").items.length ≤ 32 → ∀ before item after,
    (value.get "stop_conditions").items = before ++ item :: after → (∀ other ∈ before, validStopCondition other = some true) →
      shaped item = true → hashable (item.get "kind") = true

theorem paths_isSome {value : Json} {field : String} :
    (paths value field).isSome = true ↔ (value.items.length ≤ 64 → ∀ item ∈ value.items, hashable item = true) := by
  unfold paths
  split
  · rename_i unbounded
    refine ⟨fun _ short item member => ?_, fun _ => rfl⟩
    rw [Bool.or_eq_true, Bool.or_eq_true, decide_eq_true_eq, Bool.not_eq_true', List.isEmpty_iff] at unbounded
    obtain (other | empty) | long := unbounded
    · cases value with
      | arr items => cases other
      | _ => cases member
    · rw [empty] at member
      cases member
    · omega
  · rename_i bounded_
    split
    · rename_i unheld
      refine ⟨fun returned => (Bool.false_ne_true returned).elim, fun each => ?_⟩
      simp only [Bool.or_eq_true, not_or, decide_eq_true_eq, Nat.not_lt] at bounded_
      rw [List.all_eq_true.mpr (each bounded_.2)] at unheld
      cases unheld
    · rename_i held
      rw [Bool.not_eq_true, Bool.not_eq_false'] at held
      exact ⟨fun _ _ => List.all_eq_true.mp held, fun _ => rfl⟩

theorem validStopCondition_eq_none {item : Json} :
    validStopCondition item = none ↔ shaped item = true ∧ hashable (item.get "kind") = false := by
  unfold validStopCondition
  split_ifs with form held
  · simp [shaped, form, held]
  · simp [shaped, form, held]
  · simp [shaped, form]

/-- The search for an invalid condition is cut short by one whose kind no set can hold, behind valid ones. -/
theorem anyInvalidStop_isSome {items : List Json} : (anyInvalidStop items).isSome = true ↔
    ∀ before item after, items = before ++ item :: after → (∀ other ∈ before, validStopCondition other = some true) →
      shaped item = true → hashable (item.get "kind") = true := by
  induction items with
  | nil =>
    refine ⟨fun _ before item after split => ?_, fun _ => rfl⟩
    simp at split
  | cons first rest ih =>
    rw [anyInvalidStop]
    constructor
    · intro found before item after split valid form
      by_contra unheld
      have raised := validStopCondition_eq_none.mpr ⟨form, Bool.eq_false_iff.mpr unheld⟩
      cases before with
      | nil =>
        rw [List.nil_append, List.cons.injEq] at split
        rw [split.1, raised] at found
        cases found
      | cons head tail =>
        rw [List.cons_append, List.cons.injEq] at split
        rw [split.1, valid head List.mem_cons_self] at found
        exact unheld (ih.mp found tail item after split.2 (fun other member => valid other (List.mem_cons_of_mem _ member)) form)
    · intro each
      cases checked : validStopCondition first with
      | none =>
        obtain ⟨form, unheld⟩ := validStopCondition_eq_none.mp checked
        rw [each [] first rest rfl (by simp) form] at unheld
        cases unheld
      | some valid =>
        cases valid with
        | false => rfl
        | true =>
          refine ih.mpr fun before item after split valid => ?_
          refine each (first :: before) item after (by rw [split]; rfl) fun other member => ?_
          obtain rfl | later := List.mem_cons.mp member
          · exact checked
          · exact valid other later

theorem itemShapeErrors_isSome {value : Json} :
    (itemShapeErrors value).isSome = true ↔ Iterable value "outputs" ∧ Iterable value "evidence" := by
  unfold itemShapeErrors Iterable
  cases iterate value "outputs" with
  | none => simp
  | some outputs =>
    cases iterate value "evidence" with
    | none => simp
    | some evidence => simp

theorem collectionErrors_isSome {value : Json} :
    (collectionErrors value).isSome = true ↔ Iterable value "outputs" ∧ Iterable value "evidence" := by
  rw [← itemShapeErrors_isSome, collectionErrors]
  cases itemShapeErrors value with
  | none => rfl
  | some shapes => exact ⟨fun _ => rfl, fun _ => rfl⟩

theorem ruleErrors_isSome {value : Json} : (ruleErrors value).isSome = true ↔
    ((value.get "path_scope").hasExactly ["read", "write"] = true →
      ∀ access ∈ ["read", "write"], (paths ((value.get "path_scope").get access) ("path_scope." ++ access)).isSome = true) ∧
    (bounded (value.get "stop_conditions") = true → (anyInvalidStop (value.get "stop_conditions").items).isSome = true) := by
  have both : (∀ access ∈ ["read", "write"], (paths ((value.get "path_scope").get access) ("path_scope." ++ access)).isSome = true) ↔
      (paths ((value.get "path_scope").get "read") "path_scope.read").isSome = true ∧
        (paths ((value.get "path_scope").get "write") "path_scope.write").isSome = true := by
    rw [List.forall_mem_cons, List.forall_mem_singleton]
    rfl
  rw [ruleErrors, both]
  cases (value.get "path_scope").hasExactly ["read", "write"] <;> cases bounded (value.get "stop_conditions") <;>
    cases paths ((value.get "path_scope").get "read") "path_scope.read" <;>
    cases paths ((value.get "path_scope").get "write") "path_scope.write" <;>
    cases anyInvalidStop (value.get "stop_conditions").items <;> simp

/-- The validator returns a list of errors for every value that is no object, and for an object if and only if it is
readable. -/
theorem errors_isSome {value : Json} : (errors value).isSome = true ↔ (value.isObj = true → Readable value) := by
  have parts : (errors value).isSome = true ↔
      (value.isObj = true → (collectionErrors value).isSome = true ∧ (ruleErrors value).isSome = true) := by
    unfold errors
    cases value.isObj with
    | false => simp
    | true => cases collectionErrors value <;> cases ruleErrors value <;> simp
  rw [parts]
  refine forall_congr' fun _ => ?_
  rw [collectionErrors_isSome, ruleErrors_isSome, anyInvalidStop_isSome]
  simp only [paths_isSome]
  constructor
  · rintro ⟨⟨outputs, evidence⟩, scopes, stops⟩
    refine ⟨outputs, evidence, scopes, fun short before item after split => ?_⟩
    refine stops ?_ before item after split
    have some_ : (value.get "stop_conditions").items.isEmpty = false := by rw [split]; simp
    have list : (value.get "stop_conditions").isArr = true := by
      cases found : value.get "stop_conditions" with
      | arr items => rfl
      | _ => rw [found] at some_; cases some_
    rw [bounded, list, some_, decide_eq_true short]
    rfl
  · rintro ⟨outputs, evidence, scopes, stops⟩
    refine ⟨⟨outputs, evidence⟩, scopes, fun bounded_ => ?_⟩
    rw [bounded, Bool.and_eq_true, decide_eq_true_eq] at bounded_
    exact stops bounded_.2

/-! What a valid envelope is made of. -/

/-- The validator has nothing to say about an envelope. -/
structure Sound (value : Json) : Prop where
  object : value.isObj = true
  present : ∀ name ∈ requiredFields value, value.has name = true
  known : ∀ key ∈ value.fields.keys, key ∈ requiredFields value
  identity : identityErrors value = []
  capable : capabilityErrors value = []
  collected : collectionErrors value = some []
  ruled : ruleErrors value = some []

theorem sound_iff {value : Json} : errors value = some [] ↔ Sound value := by
  have empty (names : List String) : names.insertionSort (· ≤ ·) = [] ↔ names = [] := by
    rw [← List.length_eq_zero_iff, List.length_insertionSort, List.length_eq_zero_iff]
  constructor
  · intro clean
    rw [errors] at clean
    split at clean
    · cases clean
    · rename_i object
      simp only [Option.bind_eq_bind, Option.bind_eq_some_iff, Option.some.injEq, List.append_eq_nil_iff, List.map_eq_nil_iff,
        empty, List.filter_eq_nil_iff, Bool.not_eq_true, Bool.not_eq_false', List.contains_iff_mem] at clean object
      obtain ⟨collections, collected, rules, ruled, ⟨⟨⟨⟨present, known⟩, identity⟩, capable⟩, rfl⟩, rfl⟩ := clean
      exact ⟨object, present, known, identity, capable, collected, ruled⟩
  · rintro ⟨object, present, known, identity, capable, collected, ruled⟩
    have missing : (requiredFields value).filter (fun name => !value.has name) = [] := by
      rw [List.filter_eq_nil_iff]
      intro name member
      rw [present name member]
      exact Bool.false_ne_true
    have unknown : value.fields.keys.filter (fun name => !(requiredFields value).contains name) = [] := by
      rw [List.filter_eq_nil_iff]
      intro key member
      rw [List.contains_iff_mem.mpr (known key member)]
      exact Bool.false_ne_true
    rw [errors, object, collected, ruled, identity, capable]
    dsimp only
    rw [missing, unknown]
    rfl

theorem subscript_ok {value : Json} {key : String} (present : value.has key = true) :
    subscript value key = .ok (value.get key) := by
  cases value with
  | obj fields =>
    obtain ⟨entry, found⟩ := Option.isSome_iff_exists.mp (show (Dict.find key fields).isSome = true from present)
    rw [subscript, found, Json.get_obj, Dict.get, found]
    rfl
  | _ => cases present

theorem getOr_ok {value : Json} {key : String} {default : Json} (object : value.isObj = true) :
    getOr value key default = .ok (if value.has key then value.get key else default) := by
  obtain ⟨fields, rfl⟩ := Json.isObj_iff.mp object
  rw [getOr, Json.has_obj, Json.get_obj, Dict.has, Dict.get]
  cases Dict.find key fields <;> rfl

theorem entriesOf_obj (fields : Dict) :
    entriesOf (.obj fields) = .ok ((Dict.keys fields).map (fun key => (key, Dict.get fields key))) := rfl

theorem has_of_hasExactly {value : Json} {names : List String} {name : String} (exactly : value.hasExactly names = true)
    (listed : name ∈ names) : value.has name = true := by
  simp only [Json.hasExactly, Bool.and_eq_true, List.all_eq_true] at exactly
  exact exactly.1.2 name listed

theorem isObj_of_hasExactly {value : Json} {names : List String} (exactly : value.hasExactly names = true) :
    value.isObj = true := by
  simp only [Json.hasExactly, Bool.and_eq_true] at exactly
  exact exactly.1.1

theorem texts_of_isStr {items : List Json} (each : ∀ item ∈ items, item.isStr = true) : items = (items.map Json.text).map .str := by
  rw [List.map_map]
  conv_lhs => rw [← List.map_id items]
  refine List.map_congr_left fun item member => ?_
  obtain ⟨word, rfl⟩ := Json.isStr_iff.mp (each item member)
  rfl

theorem setOf_texts (words : List String) : setOf (.arr (words.map .str)) = .ok (words.map .str) := by
  have held : (words.map Json.str).all hashable = true := by simp [hashable]
  change (raiseIf (!(words.map Json.str).all hashable) (Raised.crashed "TypeError: unhashable type") >>=
    fun _ => pure (words.map Json.str)) = _
  rw [held]
  rfl

theorem isStr_of_pathValid {field : String} {item : Json} (valid : pathValid field item = none) : item.isStr = true := by
  cases item with
  | str word => rfl
  | _ => cases valid

namespace Sound

variable {value : Json} (sound : Sound value)

include sound

theorem has {name : String} (needed : name ∈ ["command_classes", "envelope_id", "envelope_revision", "evidence", "non_goals",
    "outputs", "path_scope", "schema_version", "spec_ref", "spec_revision", "stop_conditions", "task", "task_revision"]) :
    value.has name = true :=
  sound.present name (List.mem_append_right _ needed)

/-- The scopes for an access are a list of texts. -/
theorem scope {access : String} (known : access ∈ ["read", "write"]) :
    (value.get "path_scope").has access = true ∧
      (value.get "path_scope").get access = .arr ((scopesOf value access).map .str) := by
  obtain ⟨exactly, readable, written, -, -⟩ := ruleErrors_eq_nil sound.ruled
  refine ⟨has_of_hasExactly exactly known, ?_⟩
  have valid : ∃ field, paths ((value.get "path_scope").get access) field = some [] := by
    rw [List.mem_cons, List.mem_singleton] at known
    obtain rfl | rfl := known
    · exact ⟨_, readable⟩
    · exact ⟨_, written⟩
  obtain ⟨field, clean⟩ := valid
  have texts := texts_of_isStr fun item member => isStr_of_pathValid (paths_eq_nil clean item member)
  rw [scopesOf, ← texts]
  cases list : (value.get "path_scope").get access with
  | arr items => rfl
  | _ =>
    rw [list] at clean
    cases clean

theorem rule {name : String} (listed : (value.get "command_classes").has name = true) :
    validCommandRule ((value.get "command_classes").get name) = true := by
  obtain ⟨-, -, -, -, rules⟩ := ruleErrors_eq_nil sound.ruled
  exact rules _ (Json.mem_fields_of_has listed)

theorem goals : value.get "non_goals" = .arr (((value.get "non_goals").items.map Json.text).map .str) := by
  have clean := sound.collected
  simp only [collectionErrors, Option.bind_eq_bind, Option.bind_eq_some_iff, Option.some.injEq, List.append_eq_nil_iff,
    ite_eq_left_iff, reduceCtorEq, imp_false, Decidable.not_not, Bool.and_eq_true, List.all_eq_true] at clean
  obtain ⟨_, -, -, bounded_, each⟩ := clean
  rw [← texts_of_isStr fun item member => (each item member).1.1]
  cases list : value.get "non_goals" with
  | arr items => rfl
  | _ =>
    rw [list] at bounded_
    cases bounded_

end Sound

theorem ruleAllowed {rule : Json} (valid : validCommandRule rule = true) : rule.isObj = true ∧ rule.has "allowed" = true := by
  simp only [validCommandRule, Bool.and_eq_true] at valid
  refine ⟨valid.1.1.1, Dict.has_of_get_ne fun absent => ?_⟩
  have boolean := valid.1.2
  rw [show rule.get "allowed" = .null from absent] at boolean
  cases boolean

/-! Admission raises as it does over the plain envelope: through the validator and through the lease alone. -/

theorem differs_eq {task : Meta} {envelope : Json} {names : List (String × String)}
    (present : ∀ entry ∈ names, envelope.has entry.1 = true) :
    differs task envelope names = .ok (names.any (fun entry => envelope.get entry.1 != task.get entry.2)) := by
  induction names with
  | nil => rfl
  | cons entry rest ih =>
    obtain ⟨name, field⟩ := entry
    rw [List.forall_mem_cons] at present
    rw [differs, subscript_ok present.1, ok_bind, List.any_cons]
    cases different : envelope.get name != task.get field with
    | true => rfl
    | false =>
      rw [if_neg Bool.false_ne_true, Bool.false_or]
      exact ih present.2

theorem boundChecked_eq (task : Meta) : boundChecked task = (boundEnvelope task).mapError asCrash := by
  rw [boundChecked, boundEnvelope]
  by_cases missing : (!(task.get "execution_envelope_ref").isStr || !(task.get "execution_envelope").isObj) = true
  · rw [if_pos missing, if_pos missing]
    rfl
  rw [if_neg missing, if_neg missing]
  cases checked : errors (task.get "execution_envelope") with
  | none => rfl
  | some found =>
    cases found with
    | cons first rest => rfl
    | nil =>
      have sound := sound_iff.mp checked
      by_cases other : (task.get "execution_envelope_digest" != .str (canonicalDigest (task.get "execution_envelope"))) = true
      · simp only [orRaise, ok_bind, List.isEmpty_nil, Bool.not_true, Bool.false_eq_true, if_false, if_pos other]
        rfl
      · simp only [orRaise, ok_bind, List.isEmpty_nil, Bool.not_true, Bool.false_eq_true, if_false, if_neg other]
        rw [differs_eq (by
          simp only [List.forall_mem_cons]
          exact ⟨sound.has (by simp), sound.has (by simp), sound.has (by simp), sound.has (by simp), sound.has (by simp), by simp⟩)]
        simp only [ok_bind, List.any_cons, List.any_nil, Bool.or_false, ← Bool.or_assoc]
        split <;> rfl

theorem classChecked_eq {envelope : Json} (sound : Sound envelope) (command : String) :
    classChecked envelope command = .ok (classAllowed envelope command) := by
  rw [classChecked, classAllowed]
  by_cases known : commandClasses.contains command = true
  · obtain ⟨-, -, -, object, -⟩ := ruleErrors_eq_nil sound.ruled
    obtain ⟨fields, classes⟩ := Json.isObj_iff.mp object
    rw [known, if_neg (by simp), subscript_ok (sound.has (by simp)), ok_bind, classes, memberOf, Bool.true_and]
    cases listed : Dict.has fields command with
    | false =>
      rw [Json.has_obj, listed, Bool.false_and]
      rfl
    | true =>
      have present : (Json.obj fields).has command = true := listed
      have rule : validCommandRule ((Json.obj fields).get command) = true := by
        rw [← classes]
        exact sound.rule (by rw [classes]; exact listed)
      rw [present, Bool.true_and]
      change (subscript (.obj fields) command >>= fun rule => subscript rule "allowed" >>= fun allowed => pure allowed.truthy) = _
      rw [subscript_ok present, ok_bind, subscript_ok (ruleAllowed rule).2]
      rfl
  · rw [Bool.not_eq_true] at known
    rw [known]
    rfl

theorem scopesChecked_eq {envelope : Json} (sound : Sound envelope) {access : String} (known : access ∈ ["read", "write"]) :
    scopesChecked envelope access = .ok (scopesOf envelope access) := by
  obtain ⟨present, texts⟩ := sound.scope known
  have each (words : List String) : (words.map Json.str).mapM (fun item => match item with
      | .str word => pure word
      | _ => (.error (.crashed "AttributeError: no attribute 'rstrip'") : Checked String)) = .ok words := by
    induction words with
    | nil => rfl
    | cons word rest ih =>
      rw [List.map_cons, List.mapM_cons, ih]
      rfl
  rw [scopesChecked, subscript_ok (sound.has (by simp)), ok_bind, subscript_ok present, ok_bind, texts, setOf_texts, ok_bind]
  exact each _

theorem contentChecked_eq {envelope : Json} (sound : Sound envelope) (launch : Launch) (roots : Roots) :
    contentChecked envelope launch roots = .ok (envelopeDenial envelope launch roots) := by
  rw [contentChecked, envelopeDenial, classChecked_eq sound, ok_bind]
  cases classAllowed envelope launch.command with
  | false => rfl
  | true =>
    rw [Bool.not_true, if_neg Bool.false_ne_true, if_neg Bool.false_ne_true]
    cases capabilityDenial envelope launch.command launch.authorize with
    | some denial => rfl
    | none =>
      have known : (if mutating launch.command then "write" else "read") ∈ ["read", "write"] := by
        split <;> simp
      rw [Option.none_or, scopeDenial]
      change scopeChecked envelope launch.command launch.paths roots = _
      rw [scopeChecked, scopesChecked_eq sound known]
      split <;> rfl

theorem claimChecked_eq {envelope : Json} (sound : Sound envelope) (world : Moment) (task : Meta) (ownerId : String)
    (launch : Launch) (roots : Roots) : claimChecked world task ownerId launch roots envelope =
      (claimPreflight world task ownerId launch roots envelope).mapError asCrash := by
  rw [claimChecked, claimPreflight]
  split
  · rfl
  · rw [mapError_bind]
    cases leaseDenial world task with
    | error fault => rfl
    | ok lapsed =>
      cases lapsed with
      | some denial => rfl
      | none =>
        rw [contentChecked_eq sound]
        cases denial : envelopeDenial envelope launch roots with
        | some denial => rfl
        | none =>
          change (subscript envelope "envelope_id" >>= fun envelopeId => pure _) = _
          rw [subscript_ok (sound.has (by simp))]
          rfl

/-- Admission with every access checked is admission: only the validator and an incomparable lease raise. -/
theorem preflightChecked_eq (world : Moment) (task : Meta) (ownerId : String) (launch : Launch) (product : Tree)
    (state : Option Tree) (source : Option (Except String Tree)) :
    preflightChecked world task ownerId launch product state source =
      (preflight world task ownerId launch product state source).mapError asCrash := by
  have open_ : (boundChecked task >>= fun bound => match bound with
      | .error denial => pure denial
      | .ok envelope => claimChecked world task ownerId launch ⟨product, state, source.bind Except.toOption⟩ envelope) =
      (boundEnvelope task >>= fun bound => match bound with
        | .error denial => pure denial
        | .ok envelope => claimPreflight world task ownerId launch ⟨product, state, source.bind Except.toOption⟩ envelope).mapError
          asCrash := by
    rw [boundChecked_eq, mapError_bind]
    cases bound : boundEnvelope task with
    | error fault => rfl
    | ok answer =>
      cases answer with
      | error denial => rfl
      | ok envelope =>
        obtain ⟨rfl, whole⟩ := boundEnvelope_eq_ok.mp bound
        exact claimChecked_eq (sound_iff.mp whole.valid) _ _ _ _ _
  cases source with
  | none => exact open_
  | some root =>
    cases root with
    | error reason => rfl
    | ok tree => exact open_

/-! Replacement reports its errors and raises no other. -/

/-- A computation that may report an error but does not crash. -/
def Safe {α : Type} (x : Checked α) : Prop := ∀ message, x ≠ .error (.crashed message)

theorem Safe.ok {α : Type} (value : α) : Safe (.ok value : Checked α) := fun _ crashed => by cases crashed

theorem Safe.report {bad : Bool} {message : String} : Safe (raiseIf bad (.reported message)) := by
  intro other crashed
  cases bad with
  | false => cases crashed
  | true => cases crashed

theorem Safe.bind {α β : Type} {x : Checked α} {f : α → Checked β} (first : Safe x) (next : ∀ value, x = .ok value → Safe (f value)) :
    Safe (x >>= f) := by
  cases x with
  | error raised =>
    intro message crashed
    exact first message (Except.error.inj crashed ▸ rfl)
  | ok value => exact next value rfl

theorem Safe.askBefore {allowed : Json} {before : Checked Json} (safe : Safe before) : Safe (askBefore allowed before) := by
  rw [ExecutionEnvelope.askBefore]
  split
  · exact safe
  · exact .ok _

/-- A rule that a validated envelope has for a class, or the default for a class that it does not list. -/
theorem priorRule {old : Json} (sound : Sound old) (name : String) :
    ∃ prior, getOr (old.get "command_classes") name (.obj [("allowed", .bool false)]) = .ok prior ∧ prior.isObj = true ∧
      (prior.has "timeout_seconds" = true → ∃ number, prior.get "timeout_seconds" = .int number) := by
  obtain ⟨-, -, -, object, -⟩ := ruleErrors_eq_nil sound.ruled
  rw [getOr_ok object]
  cases listed : (old.get "command_classes").has name with
  | false => exact ⟨_, rfl, rfl, fun limited => (Bool.false_ne_true limited).elim⟩
  | true =>
    have valid := sound.rule listed
    refine ⟨_, rfl, (ruleAllowed valid).1, fun limited => ?_⟩
    simp only [validCommandRule, Bool.and_eq_true, Bool.or_eq_true, Bool.not_eq_true', if_true] at valid limited
    obtain unlimited | number := valid.2
    · rw [unlimited] at limited
      cases limited
    · obtain ⟨found, spelled, -⟩ := (Option.any_eq_true _ _).mp number
      exact ⟨found, Json.exactInt?_eq_some.mp spelled⟩

theorem checkRules_safe {old : Json} (sound : Sound old) {classes : List (String × Json)}
    (valid : ∀ entry ∈ classes, validCommandRule entry.2 = true) : Safe (checkRules old classes) := by
  induction classes with
  | nil => exact .ok ()
  | cons entry rest ih =>
    obtain ⟨name, rule⟩ := entry
    rw [List.forall_mem_cons] at valid
    obtain ⟨prior, found, object, limited⟩ := priorRule sound name
    obtain ⟨ruled, -⟩ := ruleAllowed valid.1
    rw [checkRules, subscript_ok (sound.has (by simp)), ok_bind, found, ok_bind, getOr_ok ruled, ok_bind]
    refine .bind (.askBefore ?_) fun before _ => .bind .report fun _ _ => ?_
    · rw [getOr_ok object]
      exact .ok _
    · rw [getOr_ok object, ok_bind]
      refine .bind ?_ fun longer _ => .bind .report fun _ _ => ih valid.2
      split
      · rename_i limit
        obtain ⟨number, spelled⟩ := limited limit
        rw [spelled]
        exact .ok _
      · exact .ok _

/-- The capabilities of a validated envelope that describes them are objects. -/
theorem rights {value : Json} (sound : Sound value) (described : describes value = true) :
    ∃ all_, getOr value "capabilities" (.obj []) = .ok all_ ∧ all_.isObj = true ∧
      ∀ name, all_.has name = true → (all_.get name).isObj = true := by
  rw [getOr_ok sound.object]
  cases listed : value.has "capabilities" with
  | false => exact ⟨_, rfl, rfl, fun name present => (Bool.false_ne_true present).elim⟩
  | true =>
    rw [describes, listed, Bool.not_true, Bool.false_or] at described
    refine ⟨_, rfl, described, fun name present => ?_⟩
    have clean := sound.capable
    rw [capabilityErrors] at clean
    have some_ : (value.get "capabilities").isNull = false := by
      obtain ⟨fields, object⟩ := Json.isObj_iff.mp described
      rw [object]
      rfl
    rw [some_, if_neg Bool.false_ne_true] at clean
    split at clean
    · cases clean
    · split at clean
      · cases clean
      · rename_i exactly
        simp only [Option.toList_eq_nil_iff, List.findSome?_eq_none_iff, ite_eq_left_iff, reduceCtorEq, imp_false,
          Decidable.not_not, Bool.and_eq_true] at clean
        rw [Bool.not_eq_true, Bool.not_eq_false'] at exactly
        simp only [Json.hasExactly, Bool.and_eq_true, List.all_eq_true, List.contains_iff_mem] at exactly
        have known := exactly.2 name ((Dict.mem_keys_iff_has _ _).mpr present)
        exact isObj_of_hasExactly (clean name known).1

theorem checkRights_safe {old : Json} (sound : Sound old) (described : describes old = true) {entries : List (String × Json)}
    (objects : ∀ entry ∈ entries, entry.2.isObj = true) : Safe (checkRights old entries) := by
  induction entries with
  | nil => exact .ok ()
  | cons entry rest ih =>
    obtain ⟨name, rule⟩ := entry
    rw [List.forall_mem_cons] at objects
    obtain ⟨all_, found, object, each⟩ := rights sound described
    rw [checkRights, getOr_ok objects.1, ok_bind]
    refine .bind (.askBefore ?_) fun before _ => .bind .report fun _ _ => ih objects.2
    rw [found, ok_bind, getOr_ok object, ok_bind, getOr_ok]
    · exact .ok _
    · split
      · exact each name ‹_›
      · rfl

theorem checkScopes_safe {old envelope : Json} (before : Sound old) (sound : Sound envelope) {accesses : List String}
    (known : ∀ access ∈ accesses, access ∈ ["read", "write"]) : Safe (checkScopes old envelope accesses) := by
  induction accesses with
  | nil => exact .ok ()
  | cons access rest ih =>
    rw [List.forall_mem_cons] at known
    obtain ⟨present, texts⟩ := sound.scope known.1
    obtain ⟨present', texts'⟩ := before.scope known.1
    rw [checkScopes, subscript_ok (sound.has (by simp)), ok_bind, subscript_ok present, ok_bind, texts, setOf_texts, ok_bind,
      subscript_ok (before.has (by simp)), ok_bind, subscript_ok present', ok_bind, texts', setOf_texts, ok_bind]
    exact .bind .report fun _ _ => ih known.2

theorem load_safe {read : Reader} {reference : String}
    (readable : ∀ new, read reference = .ok new → (errors new).isSome = true) :
    Safe ((load read reference).mapError asCrash) := by
  rw [load]
  split
  · exact .ok _
  · cases found : read reference with
    | error reason => exact .ok _
    | ok value =>
      obtain ⟨listed, checked⟩ := Option.isSome_iff_exists.mp (readable value found)
      dsimp only
      rw [checked]
      exact .ok _

/-- A replacement of a valid envelope by a file that the validator reads does not crash, if both describe their
capabilities. -/
theorem replaceChecked_safe {task : Meta} {request : Request} {read : Reader} {replacedAt : String}
    (before : Sound (task.get "execution_envelope")) (described : describes (task.get "execution_envelope") = true)
    (readable : ∀ new, read request.envelopeRef = .ok new → (errors new).isSome = true)
    (described' : ∀ new, read request.envelopeRef = .ok new → errors new = some [] → describes new = true) :
    Safe (replaceChecked task request read replacedAt) := by
  rw [replaceChecked]
  refine .bind .report fun _ _ => .bind .report fun _ _ => .bind (load_safe readable) fun answer loaded => ?_
  obtain ⟨value, found⟩ := answer
  rw [mapError_eq_ok] at loaded
  refine .bind .report fun _ clean => ?_
  rw [raiseIf_eq_ok, Bool.or_eq_false_iff, Bool.not_eq_false', List.isEmpty_iff] at clean
  cases value with
  | none => cases clean.2
  | some envelope =>
    obtain ⟨new, known⟩ : ∃ new, read request.envelopeRef = .ok new := by
      rw [load] at loaded
      split at loaded
      · cases loaded
      · cases found : read request.envelopeRef with
        | error reason =>
          rw [found] at loaded
          cases loaded
        | ok new => exact ⟨new, rfl⟩
    obtain ⟨rfl, -, valid⟩ := load_eq_ok loaded clean.1 known
    have sound := sound_iff.mp valid
    obtain ⟨-, -, -, object, -⟩ := ruleErrors_eq_nil sound.ruled
    obtain ⟨classes, spelled⟩ := Json.isObj_iff.mp object
    obtain ⟨all_, capable, object', each⟩ := rights sound (described' _ known valid)
    obtain ⟨entries, rfl⟩ := Json.isObj_iff.mp object'
    refine .bind .report fun _ _ => .bind .report fun _ _ => .bind .report fun _ _ => .bind ?_ fun _ _ => .bind .report
      fun _ _ => .bind .report fun _ _ => .bind (checkScopes_safe before sound (fun _ => id)) fun _ _ => ?_
    · rw [sameEnvelope]
      split
      · exact .ok _
      · rw [Option.getD_some, subscript_ok (sound.has (by simp)), ok_bind, subscript_ok (before.has (by simp))]
        exact .ok _
    · rw [Option.getD_some, subscript_ok (sound.has (by simp)), ok_bind, spelled, entriesOf_obj, ok_bind]
      refine .bind (checkRules_safe before fun entry member => ?_) fun _ _ => ?_
      · obtain ⟨name, listed, rfl⟩ := List.mem_map.mp member
        have present : (envelope.get "command_classes").has name = true := by
          rw [spelled]
          exact (Dict.mem_keys_iff_has _ _).mp listed
        have rule := sound.rule present
        rwa [spelled] at rule
      · rw [capable, ok_bind, entriesOf_obj, ok_bind]
        refine .bind (checkRights_safe before described fun entry member => ?_) fun _ _ => ?_
        · obtain ⟨name, listed, rfl⟩ := List.mem_map.mp member
          exact each name ((Dict.mem_keys_iff_has _ _).mp listed)
        · rw [getOr_ok before.object, if_pos (before.has (by simp)), ok_bind, before.goals, setOf_texts, ok_bind,
            getOr_ok sound.object, if_pos (sound.has (by simp)), ok_bind, sound.goals, setOf_texts, ok_bind]
          exact .bind .report fun _ _ => .bind .report fun _ _ => .ok _

/-! A second version with null for its capabilities crashes the replacement of the same envelope under another name. -/

def denyAll : Json := .obj [("git_metadata", .obj [("allowed", .bool false)]), ("network", .obj [("allowed", .bool false)])]

/-- The envelope under another identifier and without any capability. -/
def relabelled (value : Json) (other : String) : Json :=
  .obj ((value.fields.set "envelope_id" (.str other)).set "capabilities" denyAll)

theorem get_relabelled {value : Json} {other key : String} : (relabelled value other).get key =
    if key = "capabilities" then denyAll else if key = "envelope_id" then .str other else value.get key := by
  rw [relabelled, Json.get_obj, Dict.get_set, Dict.get_set]
  rfl

theorem has_relabelled {value : Json} {other key : String} : (relabelled value other).has key =
    (decide (key = "capabilities") || (decide (key = "envelope_id") || value.has key)) := by
  rw [relabelled, Json.has_obj, Dict.has_set, Dict.has_set]
  rfl

theorem kept_relabelled (value : Json) (other : String) {key : String} (kept : key ≠ "capabilities" ∧ key ≠ "envelope_id") :
    (relabelled value other).get key = value.get key := by
  rw [get_relabelled, if_neg kept.1, if_neg kept.2]

theorem requiredFields_relabelled (value : Json) (other : String) :
    requiredFields (relabelled value other) = requiredFields value := by
  rw [requiredFields, requiredFields, kept_relabelled value other (by decide)]

theorem iterate_relabelled (value : Json) (other : String) {name : String} (kept : name ≠ "capabilities" ∧ name ≠ "envelope_id") :
    iterate (relabelled value other) name = iterate value name := by
  rw [iterate, iterate, has_relabelled, kept_relabelled value other kept, decide_eq_false kept.1, decide_eq_false kept.2,
    Bool.false_or, Bool.false_or]

theorem identifierErrors_relabelled (value : Json) (other : String) {name : String}
    (kept : name ≠ "capabilities" ∧ name ≠ "envelope_id") :
    identifierErrors (relabelled value other) name = identifierErrors value name := by
  rw [identifierErrors, identifierErrors, kept_relabelled value other kept]

theorem collectionErrors_relabelled (value : Json) (other : String) :
    collectionErrors (relabelled value other) = collectionErrors value := by
  rw [collectionErrors, collectionErrors, itemShapeErrors, itemShapeErrors, iterate_relabelled value other (by decide),
    iterate_relabelled value other (by decide), kept_relabelled value other (by decide)]
  simp only [List.flatMap_cons, List.flatMap_nil]
  rw [identifierErrors_relabelled value other (by decide), identifierErrors_relabelled value other (by decide),
    identifierErrors_relabelled value other (by decide)]

theorem ruleErrors_relabelled (value : Json) (other : String) : ruleErrors (relabelled value other) = ruleErrors value := by
  rw [ruleErrors, ruleErrors, kept_relabelled value other (by decide), kept_relabelled value other (by decide),
    kept_relabelled value other (by decide)]

/-- The identity of a valid envelope. -/
structure Identity (value : Json) (envelopeId taskId specRef : String) (revision taskRevision specRevision : Int) : Prop where
  envelopeId : value.get "envelope_id" = .str envelopeId
  task : value.get "task" = .str taskId
  named : isTask taskId = true
  specRef : value.get "spec_ref" = .str specRef
  revision : value.get "envelope_revision" = .int revision
  taskRevision : value.get "task_revision" = .int taskRevision
  specRevision : value.get "spec_revision" = .int specRevision

theorem int_of_positive {value : Json} (valid : positive value = true) : ∃ number, value = .int number := by
  obtain ⟨number, written, -⟩ := (Option.any_eq_true _ _).mp valid
  exact ⟨number, Json.exactInt?_eq_some.mp written⟩

theorem Sound.identified {value : Json} (sound : Sound value) :
    ∃ envelopeId taskId specRef revision taskRevision specRevision,
      Identity value envelopeId taskId specRef revision taskRevision specRevision := by
  have clean := sound.identity
  simp only [identityErrors, List.append_eq_nil_iff, ite_eq_left_iff, ite_eq_right_iff, List.map_eq_nil_iff, List.filter_eq_nil_iff,
    List.forall_mem_cons, imp_false, Decidable.not_not, Bool.not_eq_true', Bool.and_eq_true, List.not_mem_nil,
    Bool.not_eq_false, List.cons_ne_nil] at clean
  obtain ⟨⟨⟨⟨⟨-, envelopeId⟩, task⟩, -⟩, revision, taskRevision, specRevision, -⟩, specRef⟩ := clean
  obtain ⟨word, spelled⟩ := Json.isStr_iff.mp envelopeId.1
  obtain ⟨name, named⟩ := Json.isStr_iff.mp task.1
  obtain ⟨reference, referred⟩ := Json.isStr_iff.mp specRef.1
  obtain ⟨number, written⟩ := int_of_positive revision
  obtain ⟨taskNumber, taskWritten⟩ := int_of_positive taskRevision
  obtain ⟨specNumber, specWritten⟩ := int_of_positive specRevision
  rw [named] at task
  exact ⟨word, name, reference, number, taskNumber, specNumber, spelled, named, task.2, referred, written, taskWritten, specWritten⟩

theorem isEnvelopeId_first {task : String} (named : isTask task = true) {digit : Char} (first : '1' ≤ digit ∧ digit ≤ '9') :
    isEnvelopeId (task ++ "-e" ++ String.ofList [digit]) = true := by
  obtain ⟨number, spelled, four⟩ := isTask_iff.mp named
  rw [Text.exactly, Bool.and_eq_true, beq_iff_eq] at four
  have long : task.toList.length = 7 := by rw [spelled]; simp [four.1]
  have cs : (task ++ "-e" ++ String.ofList [digit]).toList = task.toList ++ ['-', 'e', digit] := by
    rw [String.toList_append, String.toList_append, String.toList_ofList, List.append_assoc, List.append_right_inj, String.toList_ofList]
    rfl
  rw [isEnvelopeId, cs, List.take_left' long, List.drop_left' long, String.ofList_toList, named]
  simp [first]

/-- The fields of a valid envelope that does not describe its capabilities: a second version with null. -/
theorem Sound.undescribed {value : Json} (sound : Sound value) (silent : describes value = false) :
    "capabilities" ∈ requiredFields value ∧ (value.get "schema_version" == .int 2) = true := by
  rw [describes, Bool.or_eq_false_iff, Bool.not_eq_false'] at silent
  have required := sound.known "capabilities" ((Dict.mem_keys_iff_has _ _).mpr silent.1)
  refine ⟨required, ?_⟩
  by_contra other
  rw [requiredFields, if_neg (by simp [other]), List.nil_append] at required
  simp at required

theorem Sound.relabelled {value : Json} (sound : Sound value) (silent : describes value = false) {task other : String}
    (named : value.get "task" = .str task) (spelled : isEnvelopeId other = true)
    (leads : Text.hasPrefix (task ++ "-") other = true) : Sound (relabelled value other) where
  object := rfl
  present := by
    intro name member
    rw [requiredFields_relabelled] at member
    rw [has_relabelled, sound.present name member, Bool.or_true, Bool.or_true]
  known := by
    intro key member
    rw [requiredFields_relabelled]
    obtain rfl | member := Dict.mem_keys_set.mp member
    · exact (sound.undescribed silent).1
    · obtain rfl | member := Dict.mem_keys_set.mp member
      · exact List.mem_append_right _ (by simp)
      · exact sound.known key member
  identity := by
    have clean := sound.identity
    obtain ⟨_, _, _, _, _, _, own⟩ := sound.identified
    have before := own.envelopeId
    simp only [identityErrors, before, named, List.append_eq_nil_iff, ite_eq_left_iff, ite_eq_right_iff] at clean ⊢
    simp only [kept_relabelled value other (show "schema_version" ≠ "capabilities" ∧ _ by decide),
      kept_relabelled value other (show "task" ≠ "capabilities" ∧ _ by decide),
      kept_relabelled value other (show "spec_ref" ≠ "capabilities" ∧ _ by decide)]
    refine ⟨⟨⟨⟨⟨clean.1.1.1.1.1, ?_⟩, by rw [named]; exact clean.1.1.1.2⟩, ?_⟩, ?_⟩, clean.2⟩
    · rw [get_relabelled, if_neg (by decide), if_pos rfl]
      simp [Json.isStr, Json.text, spelled]
    · rw [get_relabelled, if_neg (by decide), if_pos rfl, named]
      simp [Json.isStr, Json.text, leads]
    · have same := clean.1.2
      simp only [List.map_eq_nil_iff, List.filter_eq_nil_iff, List.forall_mem_cons] at same ⊢
      rw [kept_relabelled value other (by decide), kept_relabelled value other (by decide), kept_relabelled value other (by decide)]
      exact ⟨same.1, same.2.1, same.2.2.1, by simp⟩
  capable := by
    have second := (sound.undescribed silent).2
    rw [capabilityErrors, get_relabelled, if_pos rfl, kept_relabelled value other (by decide), bne, second]
    decide
  collected := by rw [collectionErrors_relabelled]; exact sound.collected
  ruled := by rw [ruleErrors_relabelled]; exact sound.ruled

theorem widens_same (words : List String) : widens (words.map Json.str) (words.map Json.str) = false := by
  rw [widens, Bool.not_eq_false', List.all_eq_true]
  intro item member
  obtain ⟨word, listed, rfl⟩ := List.mem_map.mp member
  exact List.any_eq_true.mpr ⟨.str word, member, (Json.beq_str _ _).mpr rfl⟩

/-- The same scopes are no wider. -/
theorem checkScopes_same {old envelope : Json} (before : Sound old) (sound : Sound envelope)
    (same : old.get "path_scope" = envelope.get "path_scope") {accesses : List String}
    (known : ∀ access ∈ accesses, access ∈ ["read", "write"]) : checkScopes old envelope accesses = .ok () := by
  induction accesses with
  | nil => rfl
  | cons access rest ih =>
    rw [List.forall_mem_cons] at known
    obtain ⟨present, texts⟩ := sound.scope known.1
    rw [checkScopes, subscript_ok (sound.has (by simp)), ok_bind, subscript_ok present, ok_bind, texts, setOf_texts, ok_bind,
      subscript_ok (before.has (by simp)), ok_bind, same, subscript_ok present, ok_bind, texts, setOf_texts, ok_bind, widens_same,
      raiseIf_false]
    exact ih known.2

/-- The same rules are no wider. -/
theorem checkRules_same {old : Json} (sound : Sound old) {classes : List (String × Json)}
    (own : ∀ entry ∈ classes, (old.get "command_classes").has entry.1 = true ∧ entry.2 = (old.get "command_classes").get entry.1) :
    checkRules old classes = .ok () := by
  induction classes with
  | nil => rfl
  | cons entry rest ih =>
    obtain ⟨name, rule⟩ := entry
    rw [List.forall_mem_cons] at own
    obtain ⟨⟨listed, same⟩, later⟩ := own
    dsimp only at listed same
    subst same
    obtain ⟨-, -, -, object, -⟩ := ruleErrors_eq_nil sound.ruled
    have valid := sound.rule listed
    obtain ⟨ruled, decided⟩ := ruleAllowed valid
    have granted : ∃ before, askBefore (((old.get "command_classes").get name).get "allowed")
        (getOr ((old.get "command_classes").get name) "allowed" (.bool false)) = .ok before ∧ before.truthy = true := by
      rw [askBefore, getOr_ok ruled, if_pos decided]
      split
      · exact ⟨_, rfl, ‹_›⟩
      · exact ⟨_, rfl, rfl⟩
    obtain ⟨before, asked, truthy⟩ := granted
    have limit : (getOr ((old.get "command_classes").get name) "timeout_seconds"
        (.int (timeoutOf ((old.get "command_classes").get name))) >>= fun limit =>
          exceeds (timeoutOf ((old.get "command_classes").get name)) limit) = .ok false := by
      rw [getOr_ok ruled, ok_bind]
      split
      · simp only [validCommandRule, Bool.and_eq_true, Bool.or_eq_true, Bool.not_eq_true'] at valid
        obtain unlimited | number := valid.2
        · simp_all
        · obtain ⟨found, spelled, -⟩ := (Option.any_eq_true _ _).mp number
          rw [timeoutOf, Json.exactInt?_eq_some.mp spelled, exceeds, Json.int?, Option.getD_some, decide_eq_false (lt_irrefl _)]
          rfl
      · rw [exceeds, decide_eq_false (lt_irrefl _)]
        rfl
    rw [checkRules, subscript_ok (sound.has (by simp)), ok_bind, getOr_ok object, if_pos listed, ok_bind, getOr_ok ruled,
      if_pos decided, ok_bind, asked, ok_bind, truthy, Bool.not_true, raiseIf_false, ← bind_assoc, limit, ok_bind, raiseIf_false]
    exact ih later

/-- A task that is bound to an envelope and to the specification of a value. -/
def boundTo (value old : Json) (before : Int) : Meta :=
  [("execution_envelope", old), ("execution_envelope_ref", .str ""), ("execution_envelope_revision", .int before),
    ("execution_envelope_task_revision", .int 1), ("execution_envelope_digest", .str ""), ("spec_ref", value.get "spec_ref"),
    ("task_revision", value.get "task_revision"), ("spec_revision", value.get "spec_revision")]

theorem canonicalDigest_ne (value : Json) : canonicalDigest value ≠ "" := by
  intro empty
  have cs := congrArg String.toList empty
  rw [canonicalDigest, RetryCircuit.digest, String.toList_append] at cs
  cases cs

theorem str_bne (first second : String) : (Json.str first != .str second) = (first != second) := rfl

theorem str_bne_self (word : String) : (Json.str word != .str word) = false := by rw [str_bne, bne_self_eq_false]

theorem int_bne_self (number : Int) : (Json.int number != .int number) = false := by
  rw [bne, Bool.not_eq_false', Json.beq_int_int]

/-- A valid second version with null for its capabilities crashes the replacement of another envelope by it. -/
theorem replaceChecked_crashes {value : Json} (sound : Sound value) (silent : describes value = false) :
    ∃ task request, Sound (Dict.get task "execution_envelope") ∧ describes (Dict.get task "execution_envelope") = true ∧
      ∃ message, replaceChecked task request (fun _ => .ok value) "" = .error (.crashed message) := by
  obtain ⟨envelopeId, taskId, specRef, revision, taskRevision, specRevision, own⟩ := sound.identified
  -- Another identifier of the same task: the first digit alone tells the two candidates apart.
  obtain ⟨other, spelled, leads, distinct⟩ : ∃ other, isEnvelopeId other = true ∧ Text.hasPrefix (taskId ++ "-") other = true ∧
      envelopeId ≠ other := by
    have leads (digit : Char) : Text.hasPrefix (taskId ++ "-") (taskId ++ "-e" ++ String.ofList [digit]) = true := by
      rw [Text.hasPrefix_iff]
      refine ⟨['e', digit], ?_⟩
      simp only [String.toList_append, String.toList_ofList, List.append_assoc, List.append_right_inj]
      rfl
    by_cases first : envelopeId = taskId ++ "-e" ++ String.ofList ['1']
    · refine ⟨_, @isEnvelopeId_first _ own.named '2' (by decide), leads '2', fun second => ?_⟩
      have cs := congrArg String.toList (first.symm.trans second)
      simp only [String.toList_append, String.toList_ofList, List.append_right_inj] at cs
      cases cs
    · exact ⟨_, @isEnvelopeId_first _ own.named '1' (by decide), leads '1', first⟩
  have before := sound.relabelled silent own.task spelled leads
  refine ⟨boundTo value (relabelled value other) (revision - 1), ⟨taskId, "abc", revision⟩, before, ?_,
    "AttributeError: no attribute 'items'", ?_⟩
  · change describes (relabelled value other) = true
    rw [describes, get_relabelled, if_pos rfl]
    exact Bool.or_true _
  have embedded : Dict.get (boundTo value (relabelled value other) (revision - 1)) "execution_envelope" = relabelled value other := rfl
  have loaded : load (fun _ => .ok value) "abc" = .ok (some value, []) := by
    have ref : (!isRef "abc" || Text.hasPrefix "." "abc" || (Text.pathParts "abc").contains "..") = false := by decide
    rw [load, ref, if_neg Bool.false_ne_true]
    dsimp only
    rw [sound_iff.mpr sound, sound.object]
    rfl
  have identifiers : sameEnvelope (Json.str "" == .str "abc") (relabelled value other) value = .ok false := by
    have refs : (Json.str "" == .str "abc") = false := by decide
    rw [sameEnvelope, refs, if_neg Bool.false_ne_true, subscript_ok (sound.has (by simp)), ok_bind,
      subscript_ok (before.has (by simp)), ok_bind, get_relabelled, if_neg (by decide), if_pos rfl, own.envelopeId]
    rw [Json.str_beq_str, beq_eq_false_iff_ne.mpr distinct]
    rfl
  have classes : (relabelled value other).get "command_classes" = value.get "command_classes" :=
    kept_relabelled value other (by decide)
  have scopes : checkScopes (relabelled value other) value ["read", "write"] = .ok () :=
    checkScopes_same before sound (kept_relabelled value other (by decide)) (fun _ => id)
  obtain ⟨-, -, -, object, -⟩ := ruleErrors_eq_nil sound.ruled
  obtain ⟨fields, listed⟩ := Json.isObj_iff.mp object
  have rules : checkRules (relabelled value other) ((Dict.keys fields).map (fun key => (key, Dict.get fields key))) = .ok () := by
    refine checkRules_same before fun entry member => ?_
    obtain ⟨name, known, rfl⟩ := List.mem_map.mp member
    rw [classes, listed]
    exact ⟨(Dict.mem_keys_iff_has _ _).mp known, rfl⟩
  have crashed : (getOr value "capabilities" (.obj []) >>= entriesOf) = .error (.crashed "AttributeError: no attribute 'items'") := by
    rw [describes, Bool.or_eq_false_iff, Bool.not_eq_false'] at silent
    rw [getOr_ok sound.object, if_pos silent.1, ok_bind]
    cases null : value.get "capabilities" with
    | obj entries =>
      rw [null] at silent
      cases silent.2
    | _ => rfl
  have digests : (Json.str "" == .str (canonicalDigest value)) = false := by
    rw [Json.str_beq_str, beq_eq_false_iff_ne]
    exact (canonicalDigest_ne value).symm
  have next : (some revision != some (revision - 1 + 1)) = false := by
    rw [Int.sub_add_cancel]
    exact bne_self_eq_false _
  have fieldsOf : Dict.get (boundTo value (relabelled value other) (revision - 1)) "execution_envelope_ref" = .str "" ∧
      Dict.get (boundTo value (relabelled value other) (revision - 1)) "execution_envelope_revision" = .int (revision - 1) ∧
      Dict.get (boundTo value (relabelled value other) (revision - 1)) "execution_envelope_task_revision" = .int 1 ∧
      Dict.get (boundTo value (relabelled value other) (revision - 1)) "execution_envelope_digest" = .str "" ∧
      Dict.get (boundTo value (relabelled value other) (revision - 1)) "spec_ref" = value.get "spec_ref" ∧
      Dict.get (boundTo value (relabelled value other) (revision - 1)) "task_revision" = value.get "task_revision" ∧
      Dict.get (boundTo value (relabelled value other) (revision - 1)) "spec_revision" = value.get "spec_revision" :=
    ⟨rfl, rfl, rfl, rfl, rfl, rfl, rfl⟩
  obtain ⟨ref, number, taskNumber, digest, spec, taskSpec, specNumber⟩ := fieldsOf
  have stated : (load (fun _ => .ok value) "abc").mapError asCrash = .ok (some value, []) := by rw [loaded]; rfl
  have classes : value.has "command_classes" = true := sound.has (by simp)
  have typed : ∀ word : String, (Json.str word).isStr = true := fun _ => rfl
  have counted : ∀ number : Int, (Json.int number).exactInt? = some number := fun _ => rfl
  simp only [replaceChecked, embedded, ref, number, taskNumber, digest, spec, taskSpec, specNumber, stated, own.task, own.specRef,
    own.taskRevision, own.specRevision, own.revision, str_bne_self, int_bne_self, identifiers, Option.map_some, next, digests,
    scopes, subscript_ok classes, listed, entriesOf_obj, rules, crashed, ok_bind,
    raiseIf_false, before.object, typed, counted, Option.isSome_some, Option.isNone_some, List.isEmpty_nil, Option.getD_some,
    Bool.and_self, Bool.not_true, Bool.or_self]
  rfl

/-- A lease that is a time has an offset. -/
def Zoned (task : Meta) : Prop := ∀ word expiry, claimExpires task = .str word →
  Datetime.read (withOffset word) = some expiry → expiry.offset.isSome = true

theorem leaseDenial_ok {task : Meta} (zoned : Zoned task) (world : Moment) : ∃ answer, leaseDenial world task = .ok answer := by
  rw [leaseDenial]
  split
  · rename_i word expires
    split
    · exact ⟨_, rfl⟩
    · cases read : Datetime.read (withOffset word) with
      | none => exact ⟨_, rfl⟩
      | some expiry =>
        obtain ⟨offset, known⟩ := Option.isSome_iff_exists.mp (zoned word expiry expires read)
        have instant : expiry.instant? = some (expiry.wall - offset) := by rw [Datetime.instant?, known]; rfl
        dsimp only
        rw [instant]
        exact ⟨_, rfl⟩
  · exact ⟨_, rfl⟩

/-- Over a valid envelope admission returns, as far as the lease can be compared. -/
theorem preflightChecked_returns {task : Meta} (sound : Sound (task.get "execution_envelope")) (zoned : Zoned task)
    (world : Moment) (ownerId : String) (launch : Launch) (product : Tree) (state : Option Tree)
    (source : Option (Except String Tree)) :
    ∃ answer, preflightChecked world task ownerId launch product state source = .ok answer := by
  have claimed (envelope : Json) (roots : Roots) : ∃ answer, claimPreflight world task ownerId launch roots envelope = .ok answer := by
    rw [claimPreflight]
    split
    · exact ⟨_, rfl⟩
    · obtain ⟨lapsed, denied_⟩ := leaseDenial_ok zoned world
      rw [denied_]
      exact ⟨_, rfl⟩
  have bound : ∃ answer, boundEnvelope task = .ok answer := by
    rw [boundEnvelope, sound_iff.mpr sound]
    simp only [orRaise, ok_bind, List.isEmpty_nil, Bool.not_true, Bool.false_eq_true, if_false]
    split_ifs <;> exact ⟨_, rfl⟩
  have open_ : ∃ answer, (boundEnvelope task >>= fun bound => match bound with
      | .error denial => pure denial
      | .ok envelope => claimPreflight world task ownerId launch ⟨product, state, source.bind Except.toOption⟩ envelope) =
        .ok answer := by
    obtain ⟨answer, returned⟩ := bound
    rw [returned, ok_bind]
    cases answer with
    | error denial => exact ⟨_, rfl⟩
    | ok envelope => exact claimed envelope _
  have returned : ∃ answer, preflight world task ownerId launch product state source = .ok answer := by
    cases source with
    | none => exact open_
    | some root =>
      cases root with
      | error reason => exact ⟨_, rfl⟩
      | ok tree => exact open_
  obtain ⟨answer, same⟩ := returned
  exact ⟨answer, by rw [preflightChecked_eq, same]; rfl⟩

/-- Over a value neither admission nor replacement raises more than its own errors: in the task, as the envelope that is
replaced and as its successor, beside valid envelopes that describe their capabilities. -/
structure Survives (value : Json) : Prop where
  admission : ∀ (world : Moment) (task : Meta) ownerId launch product state source, task.get "execution_envelope" = value →
    Zoned task → ∃ answer, preflightChecked world task ownerId launch product state source = .ok answer
  replaced : ∀ (task : Meta) request (read : Reader) replacedAt new, task.get "execution_envelope" = value →
    read request.envelopeRef = .ok new → errors new = some [] → describes new = true →
      Safe (replaceChecked task request read replacedAt)
  successor : ∀ (task : Meta) request (read : Reader) replacedAt, errors (task.get "execution_envelope") = some [] →
    describes (task.get "execution_envelope") = true → read request.envelopeRef = .ok value →
      Safe (replaceChecked task request read replacedAt)

/-- The validator returns for every value but an object that is not readable; and admission and replacement survive a value
that it accepts exactly if its capabilities, if it has any, are no null. -/
theorem envelope_validator_iff (value : Json) :
    ((errors value).isSome = true ↔ (value.isObj = true → Readable value)) ∧
    (errors value = some [] → (Survives value ↔ describes value = true)) := by
  refine ⟨errors_isSome, fun valid => ⟨fun survives => ?_, fun described => ⟨?_, ?_, ?_⟩⟩⟩
  · by_contra silent
    obtain ⟨task, request, before, described, message, crashed⟩ :=
      replaceChecked_crashes (sound_iff.mp valid) (Bool.eq_false_iff.mpr silent)
    exact survives.successor task request _ "" (sound_iff.mpr before) described rfl message crashed
  · rintro world task ownerId launch product state source rfl zoned
    exact preflightChecked_returns (sound_iff.mp valid) zoned world ownerId launch product state source
  · rintro task request read replacedAt new rfl known fit described'
    refine replaceChecked_safe (sound_iff.mp valid) described (fun other found => ?_) fun other found _ => ?_
    · cases known.symm.trans found
      rw [fit]
      rfl
    · cases known.symm.trans found
      exact described'
  · intro task request read replacedAt fit described' known
    refine replaceChecked_safe (sound_iff.mp fit) described' (fun other found => ?_) fun other found _ => ?_
    · cases known.symm.trans found
      rw [valid]
      rfl
    · cases known.symm.trans found
      exact described

/-- The validator raises on outputs that are a number; and it accepts a second version whose capabilities are null, on
which a replacement raises. -/
theorem unreadable_outputs : errors (.obj [("outputs", .int 1)]) = none ∧
    ∃ value, errors value = some [] ∧ ∃ task request message,
      replaceChecked task request (fun _ => .ok value) "" = .error (.crashed message) := by
  refine ⟨rfl, .obj (((TaskValidation.sampleEnvelope 1 4).fields.set "schema_version" (.int 2)).set "capabilities" .null), ?_⟩
  have valid : errors (.obj (((TaskValidation.sampleEnvelope 1 4).fields.set "schema_version" (.int 2)).set "capabilities" .null)) =
      some [] := by decide +kernel
  obtain ⟨task, request, -, -, message, crashed⟩ := replaceChecked_crashes (sound_iff.mp valid) (by decide +kernel)
  exact ⟨valid, task, request, message, crashed⟩

end Coordinator.ExecutionEnvelope
