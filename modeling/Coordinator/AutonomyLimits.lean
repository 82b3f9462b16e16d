import Coordinator.Metadata

/-! Tracked autonomy budgets: the optional policy, the ledger of a task's commands and the
diagnostic hold that is fenced to one task revision. -/

namespace Coordinator.AutonomyLimits
open Kit

def triggers : List String :=
  ["elapsed-time", "retry", "command", "diff-size", "cost", "external-side-effect"]

def limits : List String :=
  ["max_elapsed_seconds", "max_retries", "max_commands", "max_diff_bytes", "max_cost_units",
    "max_external_side_effects"]

def budgetValid (value : Json) : Bool :=
  match value.exactInt? with
  | some number => 0 ≤ number && number ≤ 1000000000
  | none => false

def shapeValid (value : Json) : Bool :=
  let names := value.fields.keys.filter (· ≠ "schema_version")
  value.isObj && value.get "schema_version" == .int 1 && !names.isEmpty &&
    names.all (fun name => limits.contains name && budgetValid (value.get name))

/-- A decoded policy file that passed the loader, with the digest of its bytes. -/
structure Policy where
  value : Json
  digest : String
  valid : shapeValid value = true
  digestValid : Text.isDigest digest = true

/-- The ledger of a task, or an empty object for a task without one. -/
def ledger (task : Meta) : Json := task.get "autonomy_limits"

def holdValid (hold : Json) (task : Meta) : Bool :=
  hold.hasExactly ["trigger", "observed", "limit", "held_at", "task_revision"] &&
    (hold.get "trigger").isStr && triggers.contains (hold.get "trigger").text &&
    (hold.get "observed").exactInt?.isSome && (hold.get "limit").exactInt?.isSome &&
    (hold.get "task_revision").exactInt?.isSome && hold.get "task_revision" == task.get "task_revision"

def dispositionValid (item : Json) : Bool :=
  item.hasExactly ["held_revision", "task_revision", "reason", "recorded_at"] &&
    (item.get "held_revision").exactInt?.isSome && (item.get "task_revision").exactInt?.isSome &&
    (item.get "reason").isStr && !Text.isBlank (item.get "reason").text &&
    (item.get "reason").text.length ≤ 500 && !Text.contains '\n' (item.get "reason").text

def counterValid (value : Json) : Bool := value.exactInt?.any (fun number => decide (0 ≤ number))

def fieldNames : List String :=
  ["schema_version", "policy_digest", "started_at", "commands", "retries", "cost_units",
    "external_side_effects", "hold", "dispositions"]

def metadataError (task : Meta) : Option String :=
  let value := ledger task
  let hold := value.get "hold"
  if value.isNull then none
  else if !value.hasExactly fieldNames then some "autonomy limits fields are invalid"
  else if value.get "schema_version" != .int 1 || !Text.isDigest (value.get "policy_digest").toText then
    some "autonomy limits identity is invalid"
  else if !((value.get "started_at").isStr && (Datetime.aware? (value.get "started_at").text).isSome) then
    some "autonomy limits start is invalid"
  else if !(["commands", "retries", "cost_units", "external_side_effects"].all
      (fun name => counterValid (value.get name))) || !(value.get "dispositions").isArr ||
      32 < (value.get "dispositions").items.length then
    some "autonomy limits counters are invalid"
  else if !hold.isNull && !holdValid hold task then some "autonomy limits hold is invalid"
  else if (value.get "dispositions").items.any (fun item => !dispositionValid item) then
    some "autonomy limits disposition is invalid"
  else none

/-- The part of validation that does not look at the revision of the task. -/
def ledgerSound (value : Json) : Bool :=
  value.hasExactly fieldNames && value.get "schema_version" == .int 1 &&
    Text.isDigest (value.get "policy_digest").toText &&
    ((value.get "started_at").isStr && (Datetime.aware? (value.get "started_at").text).isSome) &&
    ["commands", "retries", "cost_units", "external_side_effects"].all
      (fun name => counterValid (value.get name)) &&
    (value.get "dispositions").isArr && (value.get "dispositions").items.length ≤ 32 &&
    (value.get "dispositions").items.all dispositionValid

/-- A ledger is in order when it is sound and its hold, if any, is fenced to the revision of the task. -/
theorem metadataError_eq_none {task : Meta} : metadataError task = none ↔
    (ledger task).isNull = true ∨ (ledgerSound (ledger task) = true ∧
      (((ledger task).get "hold").isNull = true ∨ holdValid ((ledger task).get "hold") task = true)) := by
  simp only [metadataError]
  generalize ledger task = value
  cases absent : value.isNull with
  | true => simp
  | false =>
    simp only [Bool.false_eq_true, ↓reduceIte, false_or]
    split
    · next shape => simp_all [ledgerSound]
    next shape =>
    split
    · next identity =>
      simp only [reduceCtorEq, false_iff, not_and]
      intro sound
      simp only [ledgerSound, Bool.and_eq_true] at sound
      simp [bne, sound.1.1.1.1.1.1.2, sound.1.1.1.1.1.2] at identity
    next identity =>
    split
    · next start =>
      simp only [reduceCtorEq, false_iff, not_and]
      intro sound
      simp only [ledgerSound, Bool.and_eq_true] at sound
      simp [sound.1.1.1.1.2] at start
    next start =>
    split
    · next counters =>
      simp only [reduceCtorEq, false_iff, not_and]
      intro sound
      simp only [ledgerSound, Bool.and_eq_true, decide_eq_true_eq] at sound
      have bound := sound.1.2
      simp only [sound.1.1.1.2, sound.1.1.2, Bool.not_true, Bool.or_false, Bool.false_or, decide_eq_true_eq]
        at counters
      omega
    next counters =>
    have rest : ledgerSound value = (value.get "dispositions").items.all dispositionValid := by
      simp only [Bool.not_eq_true, Bool.not_eq_false', Bool.or_eq_false_iff, decide_eq_false_iff_not, Nat.not_lt]
        at shape identity start counters
      simp [ledgerSound, shape, start, counters, bne] at identity ⊢
      simp [identity]
    rw [rest]
    split
    · next held =>
      simp only [reduceCtorEq, false_iff, not_and]
      intro _ free
      simp only [Bool.and_eq_true, Bool.not_eq_true'] at held
      simp [held.1, held.2] at free
    next held =>
    have free : (value.get "hold").isNull = true ∨ holdValid (value.get "hold") task = true := by
      cases null : (value.get "hold").isNull <;> simp_all
    simp [free]

def freshState (digest at_ : String) : Dict :=
  [("schema_version", .int 1), ("policy_digest", .str digest), ("started_at", .str at_),
    ("commands", .int 0), ("retries", .int 0), ("cost_units", .int 0), ("external_side_effects", .int 0),
    ("hold", .null), ("dispositions", .arr [])]

/-- The ledger that a policy starts or continues. -/
def state (task : Meta) (selected : Policy) (at_ : String) : Outcome Dict := do
  let value := if (ledger task).isNull then .obj (freshState selected.digest at_) else ledger task
  let current := task.set "autonomy_limits" value
  raiseIf ((metadataError current).isSome || value.get "policy_digest" != .str selected.digest)
    (.error "AUTONOMY_LIMIT_POLICY_MISMATCH: durable policy identity is invalid")
  pure value.fields

def number (value : Json) : Int := value.int?.getD 0

/-- Whole seconds between two times, toward zero. -/
def elapsed (start at_ : String) : Int :=
  ((Datetime.aware? at_).getD 0 - (Datetime.aware? start).getD 0).tdiv Datetime.second

/-- The first budget that the ledger has used up. -/
def breach (current : Dict) (selected : Policy) (at_ : String) (diffBytes : Int) :
    Option (String × Int × Int) :=
  let observed : List (String × Int) :=
    [("elapsed-time", elapsed (current.get "started_at").text at_), ("retry", number (current.get "retries")),
      ("command", number (current.get "commands")), ("diff-size", diffBytes),
      ("cost", number (current.get "cost_units")),
      ("external-side-effect", number (current.get "external_side_effects"))]
  (observed.zip limits).findSome? (fun ((trigger, seen), name) =>
    if selected.value.has name && number (selected.value.get name) ≤ seen then
      some (trigger, seen, number (selected.value.get name))
    else none)

def holdRecord (found : String × Int × Int) (at_ : String) (task : Meta) : Json :=
  .obj [("trigger", .str found.1), ("observed", .int found.2.1), ("limit", .int found.2.2),
    ("held_at", .str at_), ("task_revision", .int (Meta.revision task + 1))]

def holdNote (found : String × Int × Int) : String :=
  "Autonomy limit hold recorded: " ++ found.1 ++ " observed=" ++ toString found.2.1 ++ " limit=" ++
    toString found.2.2 ++ "."

/-- A preflight of a run: the metadata, its note and whether a hold was recorded. -/
def applyPreflight (task : Meta) (selected : Option Policy) (at_ : String) (diffBytes : Int) :
    Outcome (Meta × String × Bool) :=
  match selected with
  | none => pure (task, "", false)
  | some selected => do
      let current ← state task selected at_
      raiseIf (!(current.get "hold").isNull)
        (.error "AUTONOMY_LIMIT_HOLD: explicit autonomy-limits dispose is required")
      match breach current selected at_ diffBytes with
      | none => pure (task.set "autonomy_limits" (.obj current), "Autonomy limits admitted.", false)
      | some found =>
          pure (task.set "autonomy_limits" (.obj (current.set "hold" (holdRecord found at_ task))),
            holdNote found, true)

/-- What a finished command reports to the ledger. -/
structure Report where
  returncode : Int
  costUnits : Int
  externalSideEffect : Bool
  commandClass : Option String
  diffBytes : Int

def counted (current : Dict) (report : Report) : Dict :=
  let bump (fields : Dict) (name : String) (amount : Int) : Dict :=
    fields.set name (.int (number (fields.get name) + amount))
  let fields := bump current "commands" 1
  let fields := bump fields "retries" (if report.returncode ≠ 0 then 1 else 0)
  let fields := bump fields "cost_units" report.costUnits
  bump fields "external_side_effects"
    (if report.externalSideEffect || report.commandClass == some "git-publication" then 1 else 0)

def applyRecord (task : Meta) (selected : Option Policy) (at_ : String) (report : Report) :
    Outcome (Meta × String) :=
  match selected with
  | none => pure (task, "")
  | some selected => do
      let current ← state task selected at_
      raiseIf (report.costUnits < 0) (.error "autonomy limits cost units are invalid")
      let current := counted current report
      match breach current selected at_ report.diffBytes, (current.get "hold").isNull with
      | some found, true =>
          pure (task.set "autonomy_limits" (.obj (current.set "hold" (holdRecord found at_ task))),
            holdNote found)
      | _, _ => pure (task.set "autonomy_limits" (.obj current), "Autonomy limits recorded.")

def lastOf (count : Nat) (values : List Json) : List Json := values.drop (values.length - count)

def applyDispose (task : Meta) (owner : String) (expectedRevision : Int) (reason at_ : String) :
    Outcome (Meta × String) := do
  raiseIf (task.get "owner" != .str owner || task.get "status" != .str "in_progress")
    (.error "autonomy limits disposition requires the active task owner")
  raiseIf (task.get "task_revision" != .int expectedRevision) (staleRevision expectedRevision task)
  let current := ledger task
  let hold := current.get "hold"
  raiseIf ((metadataError task).isSome || !current.isObj || !hold.isObj)
    (.error "autonomy limits disposition requires a current diagnostic hold")
  raiseIf (hold.get "task_revision" != task.get "task_revision")
    (.error "autonomy limits hold is not fenced to the current revision")
  let reason := Text.strip reason
  raiseIf (reason == "" || 500 < reason.length || Text.contains '\n' reason)
    (.error "autonomy limits disposition reason is invalid")
  let disposition : Json := .obj
    [("held_revision", hold.get "task_revision"), ("task_revision", .int (Meta.revision task + 1)),
      ("reason", .str reason), ("recorded_at", .str at_)]
  let dispositions := lastOf 32 ((current.get "dispositions").items ++ [disposition])
  pure (task.set "autonomy_limits"
    (.obj ((current.fields.set "dispositions" (.arr dispositions)).set "hold" .null)),
    "Recorded local autonomy-limit disposition.")

/-- The task as it stands once its revision has advanced. -/
def nextRevisionProjection (task : Meta) : Meta := task.set "task_revision" (.int (Meta.revision task + 1))

/-- The closing update of a run moves the fence of a hold to the revision it commits. -/
def carryRunHold (sessionTrigger : Option String) (kind : String) (task : Meta) : Meta :=
  let current := ledger task
  let hold := current.get "hold"
  if kind == "update" && sessionTrigger == some "run" && current.isObj && hold.isObj then
    task.set "autonomy_limits" (.obj (current.fields.set "hold"
      (.obj (hold.fields.set "task_revision" (.int (Meta.revision task + 1))))))
  else task

end Coordinator.AutonomyLimits
