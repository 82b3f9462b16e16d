import Coordinator.AssumptionFreshness
import Coordinator.Kit.Run

/-! The disposal of an assumption. It looks at the present binding once more and takes one of the bounded places in the
history, so the owner can dispose of an assumption exactly while there is room and the binding can be seen. -/

namespace Coordinator.AssumptionRevalidation
open Kit Dict TaskValidation

/-- A valid record that goes with the history before it. -/
structure Extends (history : List Json) (made : Json) : Prop where
  valid : validate made = .ok ()
  linked : (made.get "previous_digest" != (history.getLast?.map (·.get "digest")).getD (.str "")) = false
  later : (history.getLast?.map revisionOf).getD 0 < revisionOf made
  follows : follow ((active history).find (made.get "id").toText) made = .ok ()

section histories

variable {history before rest : List Json} {made found : Json} {name : String}

theorem checkHistory_cons : checkHistory before (made :: rest) = .ok () ↔
    Extends before made ∧ checkHistory (before ++ [made]) rest = .ok () := by
  simp only [checkHistory, bind_eq_ok, exists_unit, raiseIf_eq_ok, Bool.or_eq_false_iff, decide_eq_false_iff_not, not_le]
  constructor
  · rintro ⟨valid, ⟨linked, later⟩, follows, onward⟩
    exact ⟨⟨valid, linked, later, follows⟩, onward⟩
  · rintro ⟨⟨valid, linked, later, follows⟩, onward⟩
    exact ⟨valid, ⟨linked, later⟩, follows, onward⟩

/-- A history stays valid under exactly the records that extend it. -/
theorem checkHistory_snoc : checkHistory before (rest ++ [made]) = .ok () ↔
    checkHistory before rest = .ok () ∧ Extends (before ++ rest) made := by
  induction rest generalizing before with
  | nil =>
    rw [List.nil_append, checkHistory_cons, List.append_nil]
    exact ⟨fun both => ⟨rfl, both.1⟩, fun both => ⟨both.2, rfl⟩⟩
  | cons record rest ih =>
    rw [List.cons_append, checkHistory_cons, checkHistory_cons, ih, List.append_assoc, List.singleton_append, and_assoc]

theorem valid_of_checked (checked : checkHistory before history = .ok ()) : ∀ record ∈ history, validate record = .ok () := by
  induction history generalizing before with
  | nil => exact fun _ member => nomatch member
  | cons record rest ih =>
    obtain ⟨extends_, onward⟩ := checkHistory_cons.mp checked
    exact List.forall_mem_cons.mpr ⟨extends_.valid, ih onward⟩

theorem active_snoc : active (history ++ [made]) = (active history).set (made.get "id").toText made := by
  rw [active, List.foldl_append]
  rfl

/-- The record in force under a name is one of the history that bears it. -/
theorem mem_of_active (listed : (active history).find name = some found) :
    found ∈ history ∧ (found.get "id").toText = name := by
  induction history using List.reverseRecOn with
  | nil => cases listed
  | append_singleton rest record ih =>
    rw [active_snoc, find_set] at listed
    by_cases here : name = (record.get "id").toText
    · rw [if_pos here, Option.some.injEq] at listed
      rw [← listed]
      exact ⟨List.mem_append_right _ List.mem_cons_self, here.symm⟩
    · rw [if_neg here] at listed
      exact ⟨List.mem_append_left _ (ih listed).1, (ih listed).2⟩

theorem nodup_keys_set {fields : Dict} {key : String} (value : Json) (nodup : fields.keys.Nodup) :
    (fields.set key value).keys.Nodup := by
  induction fields with
  | nil => exact List.nodup_singleton _
  | cons entry rest ih =>
    obtain ⟨label, old⟩ := entry
    obtain ⟨fresh, unique⟩ := List.nodup_cons.mp nodup
    by_cases same : label = key
    · rw [Dict.set, if_pos same]
      exact List.nodup_cons.mpr ⟨same ▸ fresh, unique⟩
    · rw [Dict.set, if_neg same]
      refine List.nodup_cons.mpr ⟨fun again => ?_, ih unique⟩
      obtain here | later := Dict.mem_keys_set.mp again
      · exact same here
      · exact fresh later

theorem nodup_active (history : List Json) : (active history).keys.Nodup := by
  induction history using List.reverseRecOn with
  | nil => exact List.nodup_nil
  | append_singleton rest record ih =>
    rw [active_snoc]
    exact nodup_keys_set record ih

theorem find_of_mem {fields : Dict} {entry : String × Json} (nodup : fields.keys.Nodup) (member : entry ∈ fields) :
    fields.find entry.1 = some entry.2 := by
  induction fields with
  | nil => cases member
  | cons first rest ih =>
    obtain ⟨fresh, unique⟩ := List.nodup_cons.mp nodup
    obtain rfl | later := List.mem_cons.mp member
    · exact if_pos rfl
    · have apart : first.1 ≠ entry.1 := fun same => fresh (same ▸ List.mem_map_of_mem later)
      exact (if_neg apart).trans (ih unique later)

/-- Only records in force count for freshness. -/
theorem firstStale_live {world : Moment} {task : Meta} {tasks : List Meta} (entries : Dict) :
    firstStale world task tasks (entries.filter (fun entry => isLive entry.2)) = firstStale world task tasks entries := by
  induction entries with
  | nil => rfl
  | cons entry rest ih =>
    obtain ⟨label, record⟩ := entry
    cases live : isLive record with
    | true => rw [List.filter_cons_of_pos (by simpa using live), firstStale, firstStale, ih]
    | false =>
      rw [List.filter_cons_of_neg (by simp [live]), ih, firstStale, live]
      rfl

/-- The records in force are the same without one that is not. -/
theorem live_pop {entries : Dict} (nodup : entries.keys.Nodup) (listed : entries.find name = some made)
    (settled : isLive made = false) :
    (entries.pop name).filter (fun entry => isLive entry.2) = entries.filter (fun entry => isLive entry.2) := by
  rw [Dict.pop, List.filter_filter]
  refine List.filter_congr fun entry member => ?_
  by_cases here : entry.1 = name
  · have same : some made = some entry.2 := by rw [← listed, ← here, find_of_mem nodup member]
    rw [← Option.some.inj same, settled]
    rfl
  · simp [here]

end histories

/-! One disposal. -/

/-- The facts of a valid record that a follow-up takes over. -/
structure Named (record : Json) : Prop where
  id : isAssumptionId (record.get "id").toText = true
  kind : ∃ kind ∈ kinds, record.get "kind" = .str kind
  material : ∃ material, record.get "material" = .bool material
  digest : record.get "digest" = .str (digest (identityOf record))

theorem named_of_validate {record : Json} (valid : validate record = .ok ()) : Named record := by
  simp only [validate, bind_eq_ok, exists_unit, raiseIf_eq_ok, Bool.not_eq_false', identityValid, Bool.and_eq_true] at valid
  obtain ⟨-, ⟨⟨⟨⟨⟨⟨⟨⟨⟨⟨⟨-, -⟩, id⟩, kind⟩, material⟩, -⟩, -⟩, -⟩, -⟩, -⟩, digest⟩, -⟩, -⟩ := valid
  obtain ⟨text, listed⟩ := (Bool.and_eq_true _ _ ▸ kind : _ ∧ _)
  obtain ⟨word, named⟩ := Json.isStr_iff.mp text
  refine ⟨id, ⟨word, ?_, named⟩, ?_, (Json.beq_str _ _).mp digest⟩
  · rw [named] at listed
    exact List.contains_iff_mem.mp listed
  · cases known : record.get "material" with
    | bool value => exact ⟨value, rfl⟩
    | _ => simp [known, Json.isBool] at material

/-- A request of the owner at the current revision of an active task. -/
structure Fenced (task : Meta) (request : Request) : Prop where
  selected : task.get "id" = .str request.task
  holder : owner task = .str request.owner
  active : status task = .str "in_progress"
  current : task.get "task_revision" = .int request.expectedRevision

/-- A plain disposal with a reason that a record may carry. -/
structure Disposal (request : Request) : Prop where
  action : request.action = "dispose"
  kind : request.kind = none
  reference : request.reference = none
  reason : Text.isBlank request.reason = false
  short : request.reason.length ≤ 512
  line : Text.contains '\n' request.reason = false

/-- The settings of the installation are there. -/
def Configured (files : Files) : Prop := ∃ settings, files.config = some settings ∧ settings.has "projects_root" = true

/-- The present binding of a record can be seen and recorded. -/
def Observable (world : Moment) (task : Meta) (tasks : List Meta) (record : Json) : Prop :=
  ∃ bound, currentBinding world task tasks record = .ok bound ∧ validateBinding (record.get "kind").text bound = .ok ()

section disposals

variable {files : Files} {world : Moment} {task after : Meta} {tasks : List Meta} {request : Request} {history : List Json}
  {old made bound : Json} {note : String}

theorem requestIdentity_followup (known : Named old) (live : (old.get "action" == .str "dispose") = false)
    (disposal : Disposal request) : requestIdentity request (some old) =
      .ok ((old.get "material").truthy, (old.get "kind").text, referenceOf old) := by
  obtain ⟨kind, listed, named⟩ := known.kind
  have action : request.action ≠ "declare" := by
    rw [disposal.action]
    decide
  simp only [requestIdentity, action, ↓reduceIte, disposal.kind, disposal.reference, orRaise, ok_bind, live, named,
    Option.any_none, raiseIf_false, Json.toText_str, Json.text, referenceOf]
  simp only [kinds, List.mem_cons, List.not_mem_nil, or_false] at listed
  obtain rfl | rfl | rfl := listed <;> rfl

/-- The record of a disposal. -/
def disposalOf (task : Meta) (history : List Json) (request : Request) (old bound : Json) : Dict :=
  [("schema_version", .int 1), ("action", .str "dispose"), ("id", .str request.assumptionId),
    ("kind", .str (old.get "kind").text), ("material", .bool (old.get "material").truthy), ("binding", bound),
    ("task_revision", .int (Meta.revision task + 1)), ("previous_digest", .str (ChangeDrift.previousDigest history)),
    ("reason", .str request.reason)]

def signed (identity : Dict) : Json := .obj (identity ++ [("digest", .str (digest (.obj identity)))])

theorem previousDigest_linked (valid : ∀ record ∈ history, validate record = .ok ()) :
    (ChangeDrift.previousDigest history == "") = true ∨ Text.isDigest (ChangeDrift.previousDigest history) = true := by
  unfold ChangeDrift.previousDigest
  split
  · next last found =>
    have known := named_of_validate (valid last (List.mem_of_getLast? found))
    rw [known.digest]
    exact .inr (Sha256.isDigest_hexdigest _)
  · exact .inl rfl

/-- What a disposal by the fenced owner comes to. -/
theorem apply_dispose (configured : Configured files) (fenced : Fenced task request) (disposal : Disposal request) (known : records task = .ok history)
    (checked : checkHistory [] history = .ok ()) (found : (active history).find request.assumptionId = some old)
    (live : (old.get "action" == .str "dispose") = false) (positive : 0 ≤ Meta.revision task) :
    (∃ note, apply files world task tasks request = .ok (after, note)) ↔ history.length < maxRecords ∧
      ∃ bound, currentBinding world task tasks old = .ok bound ∧
        after = task.set "assumption_revalidation" (.arr (history ++ [signed (disposalOf task history request old bound)])) := by
  obtain ⟨settings, installed, rooted⟩ := configured
  obtain ⟨member, named⟩ := mem_of_active found
  have valid := valid_of_checked checked
  have facts := named_of_validate (valid old member)
  have selected : (task.get "id" != .str request.task) = false := by
    rw [bne, Bool.not_eq_false', Json.beq_str]
    exact fenced.selected
  have active_ : (status task != .str "in_progress") = false := by
    rw [bne, Bool.not_eq_false', Json.beq_str]
    exact fenced.active
  have revision : requireRevision task request.expectedRevision = .ok () := by
    rw [requireRevision, raiseIf_eq_ok, fenced.current, bne, Bool.not_eq_false', Json.beq_int_int]
  have holder : requireOwner task request.task request.owner = .ok () := requireOwner_eq_ok.mpr fenced.holder
  have identified (bound : Json) : record "dispose" request.assumptionId (old.get "kind").text (old.get "material").truthy bound
      (Meta.revision task + 1) (ChangeDrift.previousDigest history) request.reason =
      .ok (signed (disposalOf task history request old bound)) := by
    obtain ⟨kind, listed, kindText⟩ := facts.kind
    have name := facts.id
    rw [named] at name
    have past : decide (Meta.revision task + 1 < 1) = false := decide_eq_false (by omega)
    have linked : (ChangeDrift.previousDigest history != "" && !Text.isDigest (ChangeDrift.previousDigest history)) = false := by
      obtain empty | digest := previousDigest_linked valid
      · rw [bne, empty]
        rfl
      · rw [digest]
        exact Bool.and_false _
    have acted : actions.contains "dispose" = true := by decide
    simp only [record, acted, name, kindText, Json.text, List.contains_iff_mem.mpr listed, past, linked, Bool.not_true,
      Bool.or_false, raiseIf_false, signed, disposalOf]
    rfl
  have room : decide (maxRecords ≤ history.length) = false ↔ history.length < maxRecords := by simp
  have other : ("dispose" == "revalidate") = false := by decide
  simp only [apply, installed, orRaise, ok_bind, rooted, selected, active_, holder, revision, known, found,
    requestIdentity_followup facts live disposal, Bool.not_true, raiseIf_false, disposal.action, disposal.reason, other,
    Bool.false_and, Bool.and_false, bind_eq_ok, exists_unit, raiseIf_eq_ok, room, beq_self_eq_true, ↓reduceIte, identified,
    pure_eq_ok, Prod.mk.injEq]
  constructor
  · rintro ⟨_, small, bound, looked, rfl, -⟩
    exact ⟨small, bound, looked, rfl⟩
  · rintro ⟨small, bound, looked, rfl⟩
    exact ⟨_, small, bound, looked, rfl, rfl⟩

theorem identityOf_disposal : identityOf (signed (disposalOf task history request old bound)) =
    .obj (disposalOf task history request old bound) := by
  simp [identityOf, signed, disposalOf, Json.fields, Dict.pop]

section fields

variable (task : Meta) (history : List Json) (request : Request) (old bound : Json)

theorem disposal_schema : (signed (disposalOf task history request old bound)).get "schema_version" = .int 1 := rfl
theorem disposal_action : (signed (disposalOf task history request old bound)).get "action" = .str "dispose" := rfl
theorem disposal_id : (signed (disposalOf task history request old bound)).get "id" = .str request.assumptionId := rfl
theorem disposal_kind : (signed (disposalOf task history request old bound)).get "kind" = .str (old.get "kind").text := rfl
theorem disposal_material :
    (signed (disposalOf task history request old bound)).get "material" = .bool (old.get "material").truthy := rfl
theorem disposal_binding : (signed (disposalOf task history request old bound)).get "binding" = bound := rfl
theorem disposal_revision :
    (signed (disposalOf task history request old bound)).get "task_revision" = .int (Meta.revision task + 1) := rfl
theorem disposal_previous : (signed (disposalOf task history request old bound)).get "previous_digest" =
    .str (ChangeDrift.previousDigest history) := rfl
theorem disposal_reason : (signed (disposalOf task history request old bound)).get "reason" = .str request.reason := rfl
theorem disposal_digest : (signed (disposalOf task history request old bound)).get "digest" =
    .str (digest (.obj (disposalOf task history request old bound))) := rfl

end fields

/-- The record of a disposal is valid with its binding. -/
theorem disposal_valid (known : Named old) (named : (old.get "id").toText = request.assumptionId) (disposal : Disposal request)
    (valid : ∀ record ∈ history, validate record = .ok ()) (positive : 0 ≤ Meta.revision task) :
    validate (signed (disposalOf task history request old bound)) = .ok () ↔
      validateBinding (old.get "kind").text bound = .ok () := by
  obtain ⟨kind, listed, kindText⟩ := known.kind
  have name := known.id
  rw [named] at name
  have shape : (signed (disposalOf task history request old bound)).hasExactly recordFields = true := by
    simp [signed, disposalOf, Json.hasExactly, recordFields, Json.isObj, Json.has, Json.fields, Dict.has, Dict.find, Dict.keys]
  have linked : (ChangeDrift.previousDigest history == "" || Text.isDigest (ChangeDrift.previousDigest history)) = true := by
    obtain empty | digest := previousDigest_linked valid
    · rw [empty]
      rfl
    · rw [digest]
      exact Bool.or_true _
  have identity : identityValid (signed (disposalOf task history request old bound)) = true := by
    have proper : ExecutionEnvelope.positive (.int (Meta.revision task + 1)) = true := decide_eq_true (by omega)
    have short : decide (request.reason.length ≤ 512) = true := decide_eq_true disposal.short
    have word : (old.get "kind").text = kind := by
      rw [kindText]
      rfl
    have kinds_ : RetryCircuit.oneOf (.str kind) kinds = true := (Bool.and_eq_true _ _).mpr ⟨rfl, List.contains_iff_mem.mpr listed⟩
    have text (value : String) : (Json.str value).text = value := rfl
    have acted : RetryCircuit.oneOf (.str "dispose") actions = true := by decide
    have schema : ((Json.int 1) == .int 1) = true := (Json.beq_int_int 1 1).mpr rfl
    simp only [identityValid, identityOf_disposal, disposal_schema, disposal_action, disposal_id, disposal_kind, disposal_material,
      disposal_revision, disposal_previous, disposal_reason, disposal_digest, Json.toText_str, Json.isBool, Json.isStr, text, word,
      schema, acted, name, kinds_, proper, short, disposal.line, linked, Bool.and_true, Bool.not_false, Bool.true_and]
    exact (Json.beq_str _ _).mpr rfl
  have kindWord (value : String) : (Json.str value).text = value := rfl
  have dispose : ((Json.str "dispose") == .str "dispose") = true := (Json.beq_str _ _).mpr rfl
  simp only [validate, shape, identity, disposal_action, dispose, disposal_reason, kindWord, disposal.reason, disposal_kind,
    disposal_binding, Bool.not_true, raiseIf_false, ↓reduceIte]

/-- A disposal goes with the history of the assumption that it disposes of. -/
theorem disposal_extends (found : (active history).find request.assumptionId = some old)
    (live : (old.get "action" == .str "dispose") = false) (disposal : Disposal request)
    (valid : ∀ record ∈ history, validate record = .ok ()) (positive : 0 ≤ Meta.revision task)
    (late : ∀ record ∈ history, revisionOf record ≤ Meta.revision task) :
    Extends history (signed (disposalOf task history request old bound)) ↔ validateBinding (old.get "kind").text bound = .ok () := by
  obtain ⟨member, named⟩ := mem_of_active found
  have known := named_of_validate (valid old member)
  have checked : validate (signed (disposalOf task history request old bound)) = .ok () ↔ _ :=
    disposal_valid known named disposal valid positive
  refine ⟨fun extends_ => checked.mp extends_.valid, fun visible => ⟨checked.mpr visible, ?_, ?_, ?_⟩⟩
  · rw [disposal_previous, bne, Bool.not_eq_false']
    unfold ChangeDrift.previousDigest
    cases last : history.getLast? with
    | none => exact (Json.beq_str _ _).mpr rfl
    | some final =>
      have digest := (named_of_validate (valid final (List.mem_of_getLast? last))).digest
      rw [Option.map_some, Option.getD_some, digest, Json.beq_str]
      change Json.str (final.get "digest").text = _
      rw [digest]
      rfl
  · have revision : revisionOf (signed (disposalOf task history request old bound)) = Meta.revision task + 1 := rfl
    rw [revision]
    cases last : history.getLast? with
    | none =>
      rw [Option.map_none, Option.getD_none]
      omega
    | some final =>
      have before := late final (List.mem_of_getLast? last)
      rw [Option.map_some, Option.getD_some]
      omega
  · obtain ⟨kind, -, kindText⟩ := known.kind
    obtain ⟨material, value⟩ := known.material
    have word : (Json.str kind).text = kind := rfl
    have truth : (Json.bool material).truthy = material := rfl
    have sameKind : ((Json.str kind) != .str kind) = false := by rw [bne, (Json.beq_str _ _).mpr rfl]; rfl
    have sameMaterial : ((Json.bool material) != .bool material) = false := by cases material <;> rfl
    have declared : ((Json.str "dispose") == .str "declare") = false := rfl
    have revalidated : ((Json.str "dispose") == .str "revalidate") = false := rfl
    rw [disposal_id, Json.toText_str, found]
    simp only [follow, disposal_action, declared, revalidated, Bool.false_eq_true, ↓reduceIte, orRaise, ok_bind, kindText, value,
      disposal_kind, disposal_material, word, truth, sameKind, sameMaterial, live, Bool.or_self, Bool.false_and, raiseIf_false]
    rfl

end disposals

/-! Disposals in the course of a task. -/

theorem records_eq_ok {task : Meta} {history : List Json} : records task = .ok history ↔
    (if task.has "assumption_revalidation" then task.get "assumption_revalidation" else .arr []) = .arr history ∧
      history.length ≤ maxRecords ∧ checkHistory [] history = .ok () := by
  simp only [records, bind_eq_ok, exists_unit, raiseIf_eq_ok, pure_eq_ok, Bool.or_eq_false_iff, Bool.not_eq_false',
    decide_eq_false_iff_not, not_lt]
  constructor
  · rintro ⟨⟨listed, small⟩, checked, rfl⟩
    obtain ⟨items, same⟩ := Json.isArr_iff.mp listed
    rw [same] at small checked ⊢
    exact ⟨rfl, small, checked⟩
  · rintro ⟨same, small, checked⟩
    rw [same]
    exact ⟨⟨rfl, small⟩, checked, rfl⟩

theorem metadataError_eq_none {task : Meta} : metadataError task = none ↔ ∃ history, records task = .ok history := by
  unfold metadataError
  cases records task <;> simp

/-- A valid history with no record of a later revision than the task. -/
def Kept (task : Meta) : Prop := ∃ history, records task = .ok history ∧ 0 ≤ Meta.revision task ∧
  ∀ record ∈ history, revisionOf record ≤ Meta.revision task

/-- An assumption of a task counts for freshness as if it had never been declared. -/
def Settled (task : Meta) (name : String) : Prop := ∃ history, records task = .ok history ∧
  (active history).any (fun entry => isLive entry.2) = ((active history).pop name).any (fun entry => isLive entry.2) ∧
  ∀ world other tasks, firstStale world other tasks (active history) = firstStale world other tasks ((active history).pop name)

/-- An assumption command with the validation that follows it, or another change of the task. -/
inductive Change
  | assume (files : Files) (world : Moment) (tasks : List Meta) (request : Request) (at_ : String)
  | other (after : Meta)

def step (task : Meta) : Change → Meta
  | .assume files world tasks request at_ =>
      match apply files world task tasks request with
      | .ok (after, _) => if (metadataError after).isNone then Authority.advanced after at_ else task
      | .error _ => task
  | .other after => after

/-- Other changes leave the assumptions alone and do not go back to an earlier revision. -/
def Allowed (task : Meta) : Change → Prop
  | .assume .. => True
  | .other after => SameOn ["assumption_revalidation"] after task ∧ Meta.revision task ≤ Meta.revision after

section runs

variable {files : Files} {world : Moment} {task after : Meta} {tasks : List Meta} {request : Request} {history : List Json}
  {note : String}

/-- An accepted command appends one record of the next revision. -/
theorem apply_eq_ok (applied : apply files world task tasks request = .ok (after, note)) :
    Configured files ∧ ∃ history made, records task = .ok history ∧ history.length < maxRecords ∧
      revisionOf made = Meta.revision task + 1 ∧ after = task.set "assumption_revalidation" (.arr (history ++ [made])) := by
  simp only [apply, record, bind_eq_ok, exists_unit, raiseIf_eq_ok, orRaise_eq_ok, pure_eq_ok, Bool.not_eq_false',
    decide_eq_false_iff_not, not_le, Prod.exists, Prod.mk.injEq] at applied
  obtain ⟨settings, installed, rooted, -, -, -, -, history, known, room, -, -, -, -, -, -, -, -, made, ⟨-, rfl⟩, rfl, -⟩ := applied
  exact ⟨⟨settings, installed, rooted⟩, history, _, known, room, rfl, rfl⟩

theorem records_set {ledger : List Json} : records (task.set "assumption_revalidation" (.arr ledger)) = .ok history ↔
    ledger = history ∧ history.length ≤ maxRecords ∧ checkHistory [] history = .ok () := by
  have present : (task.set "assumption_revalidation" (.arr ledger)).has "assumption_revalidation" = true := by simp
  rw [records_eq_ok, if_pos present, get_set, if_pos rfl, Json.arr.injEq]

theorem records_advanced (at_ : String) : records (Authority.advanced task at_) = records task :=
  assumptionRecords_same ((Authority.advanced_within task at_).sameOn (by decide))

theorem kept_step {change : Change} (kept : Kept task) (allowed : Allowed task change) : Kept (step task change) := by
  obtain ⟨history, known, positive, late⟩ := kept
  cases change with
  | other after =>
    have same : records after = records task := assumptionRecords_same allowed.1
    exact ⟨history, same.trans known, positive.trans allowed.2, fun record member => (late record member).trans allowed.2⟩
  | assume files world tasks request at_ =>
    simp only [step]
    split
    · next after note applied =>
      split
      · next clean =>
        obtain ⟨-, before, made, read, -, revision, rfl⟩ := apply_eq_ok applied
        obtain rfl : before = history := Except.ok.inj (read.symm.trans known)
        obtain ⟨ledger, valid⟩ := metadataError_eq_none.mp (Option.isNone_iff_eq_none.mp clean)
        obtain ⟨rfl, -, -⟩ := records_set.mp valid
        have next : Meta.revision (Authority.advanced (task.set "assumption_revalidation" (.arr (before ++ [made]))) at_) =
            Meta.revision task + 1 := by
          rw [Authority.revision_advanced, revision_set_of_ne (by decide)]
        refine ⟨before ++ [made], by rw [records_advanced, valid], by omega, fun record member => ?_⟩
        rw [next]
        obtain old | last := List.mem_append.mp member
        · have early := late record old
          omega
        · rw [List.mem_singleton.mp last, revision]
      · exact ⟨history, known, positive, late⟩
    · exact ⟨history, known, positive, late⟩

theorem kept_of_undeclared (fresh : task.has "assumption_revalidation" = false) (positive : 0 ≤ Meta.revision task) : Kept task := by
  refine ⟨[], records_eq_ok.mpr ⟨by rw [if_neg (by simp [fresh])], by decide, rfl⟩, positive, ?_⟩
  exact fun _ member => nomatch member

theorem settled_of_disposed {name : String} {made : Json} (known : records task = .ok history)
    (found : (active history).find name = some made) (disposed : made.get "action" = .str "dispose") : Settled task name := by
  have dead : isLive made = false := by
    rw [isLive, disposed]
    exact Bool.and_false _
  have same := live_pop (nodup_active history) found dead
  refine ⟨history, known, ?_, fun world other tasks => ?_⟩
  · have every (entries : Dict) : entries.any (fun entry => isLive entry.2) =
        (entries.filter (fun entry => isLive entry.2)).any (fun entry => isLive entry.2) := by simp
    rw [every, every ((active history).pop name), same]
  · rw [← firstStale_live (active history), ← firstStale_live ((active history).pop name), same]

/-- The owner can dispose of an assumption in force while there is room and its binding can be seen, and never otherwise. -/
theorem dispose_of_kept {old : Json} (kept : Kept task) (known : records task = .ok history)
    (found : (active history).find request.assumptionId = some old) (live : (old.get "action" == .str "dispose") = false)
    (fenced : Fenced task request) (disposal : Disposal request) :
    (∃ after note, apply files world task tasks request = .ok (after, note) ∧ metadataError after = none ∧
      Settled after request.assumptionId) ↔
      Configured files ∧ history.length < maxRecords ∧ Observable world task tasks old := by
  obtain ⟨_, read, positive, late⟩ := kept
  obtain rfl := Except.ok.inj (known.symm.trans read)
  obtain ⟨-, small, checked⟩ := records_eq_ok.mp known
  have valid := valid_of_checked checked
  constructor
  · rintro ⟨after, note, applied, clean, -⟩
    obtain ⟨configured, -⟩ := apply_eq_ok applied
    obtain ⟨room, bound, looked, rfl⟩ := (apply_dispose configured fenced disposal known checked found live positive).mp ⟨note, applied⟩
    obtain ⟨ledger, kept⟩ := metadataError_eq_none.mp clean
    obtain ⟨rfl, -, longer⟩ := records_set.mp kept
    have extends_ := (checkHistory_snoc.mp longer).2
    exact ⟨configured, room, bound, looked, (disposal_extends found live disposal valid positive late).mp extends_⟩
  · rintro ⟨configured, room, bound, looked, visible⟩
    obtain ⟨note, applied⟩ := (apply_dispose configured fenced disposal known checked found live positive).mpr ⟨room, bound, looked, rfl⟩
    have longer : checkHistory [] (history ++ [signed (disposalOf task history request old bound)]) = .ok () :=
      checkHistory_snoc.mpr ⟨checked, (disposal_extends found live disposal valid positive late).mpr visible⟩
    have fits : (history ++ [signed (disposalOf task history request old bound)]).length ≤ maxRecords := by
      rw [List.length_append, List.length_singleton]
      omega
    have recorded : records (task.set "assumption_revalidation"
        (.arr (history ++ [signed (disposalOf task history request old bound)]))) = .ok _ := records_set.mpr ⟨rfl, fits, longer⟩
    refine ⟨_, note, applied, metadataError_eq_none.mpr ⟨_, recorded⟩,
      settled_of_disposed recorded ?_ (disposal_action task history request old bound)⟩
    rw [active_snoc, find_set, disposal_id, Json.toText_str, if_pos rfl]

/-- In every state that commands and other changes reach from a task without assumptions, the owner can dispose of an assumption
in force, which settles it, exactly while there is room in the history and the binding can be seen. -/
theorem dispose_iff {start : Meta} (fresh : start.has "assumption_revalidation" = false) (positive : 0 ≤ Meta.revision start)
    {changes : List Change} (allowed : Run.Along step Allowed start changes) {old : Json}
    (known : records (Run.final step start changes) = .ok history) (found : (active history).find request.assumptionId = some old)
    (live : (old.get "action" == .str "dispose") = false) (fenced : Fenced (Run.final step start changes) request)
    (disposal : Disposal request) :
    (∃ after note, apply files world (Run.final step start changes) tasks request = .ok (after, note) ∧ metadataError after = none ∧
      Settled after request.assumptionId) ↔
      Configured files ∧ history.length < maxRecords ∧ Observable world (Run.final step start changes) tasks old := by
  have kept : Kept (Run.final step start changes) :=
    Run.invariant step (fun _ _ holds permitted => kept_step holds permitted) changes start
      (kept_of_undeclared fresh positive) allowed
  exact dispose_of_kept kept known found live fenced disposal

end runs

/-! A declared assumption about a file that disappears. -/

def installedFiles : Files := { sampleFiles with config := some [("projects_root", .str "projects")] }

/-- The sample moment with a readable file. -/
def readableWorld : Moment := { sampleWorld with observationDigest := fun _ => .ok sampleDigest }

def planRequest (revision : Int) (action : String) (kind : Option String) (reference : Option String) (reason : String) : Request where
  task := "AR-0001"
  owner := "worker"
  expectedRevision := revision
  action := action
  assumptionId := "plan"
  kind := kind
  material := kind.map (fun _ => true)
  reference := reference
  reason := reason

def declareSample : Request := planRequest 4 "declare" (some "observation") (some "plan.md") ""

def disposeSample : Request := planRequest 5 "dispose" none none "Superseded."

/-- The sample task with a material assumption about one file. -/
def declaredSample : Meta :=
  Run.final step claimedSample [.assume installedFiles readableWorld [] declareSample "2026-01-03T00:00:00+00:00"]

/-- The declared record, as the history holds it. -/
structure PlanDeclared (made : Json) : Prop where
  known : records declaredSample = .ok [made]
  id : made.get "id" = .str "plan"
  action : (made.get "action" == .str "dispose") = false
  kind : made.get "kind" = .str "observation"
  ref : (made.get "binding").get "ref" = .str "plan.md"
  fenced : Fenced declaredSample disposeSample

theorem declareSample_recorded : (match apply installedFiles readableWorld claimedSample [] declareSample with
    | .ok (after, _) =>
        match records after with
        | .ok [made] => made.get "id" == .str "plan" && made.get "action" == .str "declare" &&
            made.get "kind" == .str "observation" && (made.get "binding").get "ref" == .str "plan.md"
        | _ => false
    | .error _ => false) = true := by
  decide +kernel

theorem planDeclared : ∃ made, PlanDeclared made := by
  have facts := declareSample_recorded
  split at facts
  · next after note applied =>
    split at facts
    · next made recorded =>
      simp only [Bool.and_eq_true, Json.beq_str] at facts
      obtain ⟨⟨⟨id, action⟩, kind⟩, ref⟩ := facts
      have reached : declaredSample = Authority.advanced after "2026-01-03T00:00:00+00:00" := by
        have clean : metadataError after = none := metadataError_eq_none.mpr ⟨_, recorded⟩
        simp only [declaredSample, Run.final, List.foldl, step, applied, clean, Option.isNone_none, ↓reduceIte]
      obtain ⟨-, history, last, -, -, -, rfl⟩ := apply_eq_ok applied
      refine ⟨made, by rw [reached, records_advanced, recorded], id, by rw [action]; rfl, kind, ref, ?_⟩
      rw [reached]
      refine ⟨?_, ?_, ?_, ?_⟩
      · rw [Authority.advanced_get (by decide), get_set, if_neg (by decide)]
        rfl
      · rw [Authority.owner_advanced, owner, get_set, if_neg (by decide)]
        rfl
      · rw [Authority.status_advanced, status, get_set, if_neg (by decide)]
        rfl
      · rw [Authority.advanced_revision, revision_set_of_ne (by decide)]
        rfl
    · cases facts
  · cases facts

theorem disposeSample_plain : Disposal disposeSample :=
  ⟨rfl, rfl, rfl, by decide +kernel, by decide, by decide +kernel⟩

theorem PlanDeclared.active {made : Json} (declared : PlanDeclared made) :
    (active [made]).find disposeSample.assumptionId = some made := by
  have named : (made.get "id").toText = "plan" := by
    rw [declared.id]
    rfl
  simp [AssumptionRevalidation.active, named, Dict.set, Dict.find, disposeSample, planRequest]

/-- The binding of the declared record is the present digest of its file. -/
theorem PlanDeclared.binding {made : Json} (declared : PlanDeclared made) (world : Moment) :
    currentBinding world declaredSample [] made = (do
      let found ← worldResult (world.observationDigest "plan.md")
      pure (.obj [("ref", .str "plan.md"), ("digest", .str found)])) := by
  have kind : (made.get "kind").text = "observation" := by
    rw [declared.kind]
    rfl
  have reference : referenceOf made = "plan.md" := by
    rw [referenceOf, kind, declared.ref]
    rfl
  have safe : ChangeDrift.safePath (.str "plan.md") = true := by decide +kernel
  rw [currentBinding, kind, reference, AssumptionRevalidation.binding, safe]
  rfl

/-- While its file can be read, the owner disposes of the assumption. -/
theorem plan_disposed : ∃ after note, apply installedFiles readableWorld declaredSample [] disposeSample = .ok (after, note) ∧
    metadataError after = none ∧ Settled after "plan" := by
  obtain ⟨made, declared⟩ := planDeclared
  have kind : (made.get "kind").text = "observation" := by
    rw [declared.kind]
    rfl
  have valid : validateBinding "observation" (.obj [("ref", .str "plan.md"), ("digest", .str sampleDigest)]) = .ok () := by
    decide +kernel
  have allowed : Run.Along step Allowed claimedSample
      [.assume installedFiles readableWorld [] declareSample "2026-01-03T00:00:00+00:00"] := ⟨trivial, trivial⟩
  exact (dispose_iff (by decide) (by decide) allowed
    declared.known declared.active declared.action declared.fenced disposeSample_plain).mpr
      ⟨⟨_, rfl, rfl⟩, (by decide : 1 < 64), _, declared.binding readableWorld, kind ▸ valid⟩

/-- Once the file has disappeared, the owner cannot. -/
theorem plan_stuck : ∃ made, PlanDeclared made ∧ (active [made]).find "plan" = some made ∧ Disposal disposeSample ∧
    ∀ after note, apply installedFiles sampleWorld declaredSample [] disposeSample ≠ .ok (after, note) := by
  obtain ⟨made, declared⟩ := planDeclared
  refine ⟨made, declared, declared.active, disposeSample_plain, fun after note applied => ?_⟩
  have positive : 0 ≤ Meta.revision declaredSample := by
    rw [Meta.revision, declared.fenced.current]
    decide
  obtain ⟨-, bound, looked, -⟩ := (apply_dispose ⟨_, rfl, rfl⟩ declared.fenced disposeSample_plain declared.known
    (records_eq_ok.mp declared.known).2.2 declared.active declared.action positive).mp ⟨note, applied⟩
  rw [declared.binding] at looked
  cases looked

end Coordinator.AssumptionRevalidation
