import Coordinator.ExecutionEnvelope
import Coordinator.Kit.Access
import Coordinator.Kit.JsonSchema
import Mathlib.Data.List.Dedup

/-! The validator of role registries, as a program over values of unknown type, and the schemas and rules it answers for. -/

namespace Coordinator.RoleRegistry
open Kit Kit.Access Kit.JsonSchema

def forbiddenRoleAliases : List String := ["administrator", "admin-role", "root", "superuser"]

def isRoleTail (c : Char) : Bool := Text.isLower c || Text.isDigit c || c == '-'
def isActionTail (c : Char) : Bool := isRoleTail c || c == '_' || c == '.' || c == ':'

def isRoleId (word : String) : Bool := Text.shape Text.isLower isRoleTail 2 63 word
def isAction (word : String) : Bool := Text.shape Text.isLower isActionTail 1 63 word
def isPublicRef (word : String) : Bool := Text.shape Text.isAlnum ExecutionEnvelope.isRefTail 0 127 word
def isPath (word : String) : Bool := 1 ≤ word.length && word.length ≤ 200

def sorted (names : List String) : List String := names.insertionSort (· ≤ ·)

/-- A list of names as a message shows it. -/
def listed (names : List String) : String := (Json.arr (names.map .str)).repr

def exactObject (value : Json) (required : List String) (label : String) : List String :=
  if !value.isObj then [label ++ " must be an object"]
  else
    let missing := sorted (required.filter (!value.has ·))
    let unknown := sorted (value.fields.keys.filter (!required.contains ·))
    errorIf (!missing.isEmpty) (label ++ " is missing required fields: " ++ listed missing) ++
      errorIf (!unknown.isEmpty) (label ++ " has unknown fields: " ++ listed unknown)

def stringErrors (value : Json) (label : String) (pattern : String → Bool) (minimum maximum : Nat) : List String :=
  match value with
  | .str word =>
      if !(minimum ≤ word.length && word.length ≤ maximum) then
        [label ++ " length must be between " ++ toString minimum ++ " and " ++ toString maximum]
      else errorIf (!pattern word) (label ++ " has an invalid format")
  | _ => [label ++ " must be a string"]

def uniqueStrings (value : Json) (label : String) (minimum : Nat) (pattern : String → Bool) : List String :=
  match strings? value with
  | none => [label ++ " must be an array of strings"]
  | some words =>
      if words.length < minimum then [label ++ " must contain at least " ++ toString minimum ++ " items"]
      else if !decide words.Nodup then [label ++ " must not contain duplicates"]
      else words.flatMap fun word => stringErrors (.str word) label pattern 1 200

/-- A text that is not empty and not too long. -/
def boundedErrors (value : Json) (maximum : Nat) (message : String) : List String :=
  errorIf (!(value.isStr && 1 ≤ value.text.length && value.text.length ≤ maximum)) message

def versionErrors (value : Json) (message : String) : List String := errorIf (value.exactInt? != some 1) message

def capabilityNames : List String := ["capability_id", "description", "actions", "scope"]

def capabilityErrors (value : Json) : List String :=
  let errors := exactObject value capabilityNames "capability"
  if !errors.isEmpty then errors
  else
    stringErrors (value.get "capability_id") "capability_id" isRoleId 3 64 ++
      boundedErrors (value.get "description") 500
        "capability description must be a non-empty string of at most 500 characters" ++
      uniqueStrings (value.get "actions") "capability actions" 1 isAction ++
      errorIf (!(["read", "write", "admin"].any fun scope => value.get "scope" == .str scope)) "capability scope is invalid"

def toolNames : List String := ["allow", "deny"]
def worktreeNames : List String := ["mode", "path_patterns"]

/-- The mode is looked up in a set, so one that cannot be hashed raises. -/
def worktreeErrors (worktree : Json) : Checked (List String) :=
  if !worktree.hasExactly worktreeNames then pure []
  else do
    let known ← isIn (worktree.get "mode") ["shared", "isolated", "none"]
    pure (errorIf (!known) "worktree mode is invalid" ++
      uniqueStrings (worktree.get "path_patterns") "worktree path_patterns" 1 isPath)

def rolePolicyErrors (value : Json) : Checked (List String) := do
  let policy := value.get "tool_policy"
  let worktree := value.get "worktree_policy"
  let worktreeFound ← worktreeErrors worktree
  pure (exactObject policy toolNames "tool_policy" ++
    (if policy.hasExactly toolNames then
      uniqueStrings (policy.get "allow") "tool_policy allow" 0 isAction ++
        uniqueStrings (policy.get "deny") "tool_policy deny" 0 isAction
    else []) ++
    exactObject worktree worktreeNames "worktree_policy" ++ worktreeFound)

def roleNames : List String :=
  ["schema_version", "role_id", "title", "summary", "capabilities", "forbidden_actions", "tool_policy", "worktree_policy",
    "awq_profile_refs"]

def capabilitiesErrors (value : Json) : List String :=
  match value with
  | .arr [] => ["role capabilities must be a non-empty array"]
  | .arr items =>
      if items.all Json.isObj then items.flatMap capabilityErrors else ["role capabilities must contain objects"]
  | _ => ["role capabilities must be a non-empty array"]

def roleErrors (value : Json) : Checked (List String) :=
  let errors := exactObject value roleNames "role"
  if !errors.isEmpty then pure errors
  else do
    let policies ← rolePolicyErrors value
    pure (versionErrors (value.get "schema_version") "role schema_version must be 1" ++
      stringErrors (value.get "role_id") "role_id" isRoleId 3 64 ++
      boundedErrors (value.get "title") 100 "role title must be a non-empty string of at most 100 characters" ++
      boundedErrors (value.get "summary") 1000 "role summary must be a non-empty string of at most 1000 characters" ++
      capabilitiesErrors (value.get "capabilities") ++
      uniqueStrings (value.get "forbidden_actions") "forbidden_actions" 0 isAction ++ policies ++
      uniqueStrings (value.get "awq_profile_refs") "awq_profile_refs" 0 isPublicRef)

def registryNames : List String := ["schema_version", "registry_id", "roles", "default_role", "default_awq_profile_refs"]

def rolesErrors (value : Json) : Checked (List String) :=
  match value with
  | .arr [] => pure ["registry roles must be a non-empty array"]
  | .arr items =>
      if items.all Json.isObj then do
        let found ← items.mapM roleErrors
        pure found.flatten
      else pure ["registry roles must contain objects"]
  | _ => pure ["registry roles must be a non-empty array"]

def schemaErrors (value : Json) : Checked (List String) :=
  let errors := exactObject value registryNames "role registry"
  if !errors.isEmpty then pure errors
  else do
    let roles ← rolesErrors (value.get "roles")
    pure (versionErrors (value.get "schema_version") "registry schema_version must be 1" ++
      stringErrors (value.get "registry_id") "registry_id" isRoleId 3 64 ++ roles ++
      stringErrors (value.get "default_role") "default_role" isRoleId 3 64 ++
      uniqueStrings (value.get "default_awq_profile_refs") "default_awq_profile_refs" 1 isPublicRef)

/-- The elements of both sets, as a message lists them. -/
def overlapOf (actions forbidden : List Json) : List String :=
  sorted ((actions.filter (fun action => forbidden.any (action == ·))).map Json.text).dedup

def roleSemantics (role : Json) : Checked (List String) := do
  let roleId ← subscript role "role_id"
  let forbiddenAlias ← isIn roleId forbiddenRoleAliases
  let held ← subscript role "capabilities"
  let capabilities ← iterate held
  let capabilityIds ← capabilities.mapM (subscript · "capability_id")
  hashed capabilityIds
  let forbiddenActions ← subscript role "forbidden_actions"
  let forbidden ← setOf forbiddenActions
  let policy ← subscript role "tool_policy"
  let allow ← subscript policy "allow"
  let allowed ← setOf allow
  let actions ← capabilities.mapM fun capability => do
    let listed ← subscript capability "actions"
    iterate listed
  hashed actions.flatten
  let overlap := overlapOf actions.flatten forbidden
  pure (errorIf forbiddenAlias ("semantic: forbidden role alias: " ++ roleId.toText) ++
    errorIf (!distinct capabilityIds) ("semantic: duplicate capability_id in role: " ++ roleId.toText) ++
    errorIf (forbidden.any (fun action => allowed.any (action == ·)))
      ("semantic: tool action is both allowed and forbidden: " ++ roleId.toText) ++
    errorIf (!overlap.isEmpty)
      ("semantic: capability action is forbidden (" ++ roleId.toText ++ "): " ++ listed overlap))

def semanticErrors (value : Json) : Checked (List String) := do
  let held ← subscript value "roles"
  let roles ← iterate held
  let roleIds ← roles.mapM (subscript · "role_id")
  hashed roleIds
  let defaultRole ← subscript value "default_role"
  let found ← roles.mapM roleSemantics
  pure (errorIf (!distinct roleIds) "semantic: role_id values must be unique" ++
    errorIf (!roleIds.any (· == defaultRole)) "semantic: default_role must reference a declared role" ++ found.flatten)

def registryErrors (value : Json) : Checked (List String) :=
  if !value.isObj then pure ["role registry must be an object"]
  else do
    let errors ← schemaErrors value
    if !errors.isEmpty then pure (errors.map ("schema: " ++ ·)) else semanticErrors value

/-- The registry that is returned is a copy by way of its JSON text. -/
def validateRegistry (value : Json) : Checked Json := do
  let errors ← registryErrors value
  raiseIf (!errors.isEmpty) (.own (Text.joined "; " errors))
  raiseIf (!value.isObj) (.own "role registry must be an object")
  pure value

/-! The published schemas. -/

def roleIdSchema : Schema := .string isRoleId 0 none
def actionSchema : Schema := .string isAction 0 none
def publicRefSchema : Schema := .string isPublicRef 0 none
def anyText (_ : String) : Bool := true

def capabilitySchema : Schema := .closed
  [("capability_id", roleIdSchema), ("description", .string anyText 1 (some 500)), ("actions", .array 1 true actionSchema),
    ("scope", .enum (["read", "write", "admin"].map .str))]

def toolPolicySchema : Schema := .closed [("allow", .array 0 true actionSchema), ("deny", .array 0 true actionSchema)]

def worktreePolicySchema : Schema := .closed
  [("mode", .enum (["shared", "isolated", "none"].map .str)),
    ("path_patterns", .array 1 true (.string anyText 1 (some 200)))]

def roleSchema : Schema := .closed
  [("schema_version", .const (.int 1)), ("role_id", roleIdSchema), ("title", .string anyText 1 (some 100)),
    ("summary", .string anyText 1 (some 1000)), ("capabilities", .array 1 false capabilitySchema),
    ("forbidden_actions", .array 0 true actionSchema), ("tool_policy", toolPolicySchema),
    ("worktree_policy", worktreePolicySchema), ("awq_profile_refs", .array 0 true publicRefSchema)]

def registrySchema : Schema := .closed
  [("schema_version", .const (.int 1)), ("registry_id", roleIdSchema), ("roles", .array 1 false roleSchema),
    ("default_role", roleIdSchema), ("default_awq_profile_refs", .array 1 true publicRefSchema)]

/-! The semantic rules, over what they speak of. -/

structure Capability where
  capabilityId : String
  actions : List String

structure Role where
  roleId : String
  capabilities : List Capability
  forbiddenActions : List String
  allow : List String

def textsOf (value : Json) : List String := value.items.map Json.text

def Capability.of (value : Json) : Capability := ⟨(value.get "capability_id").text, textsOf (value.get "actions")⟩

def Role.of (value : Json) : Role where
  roleId := (value.get "role_id").text
  capabilities := (value.get "capabilities").items.map Capability.of
  forbiddenActions := textsOf (value.get "forbidden_actions")
  allow := textsOf ((value.get "tool_policy").get "allow")

/-- Granted by the tool policy or by a capability. -/
def Role.Grants (role : Role) (action : String) : Prop := action ∈ role.allow ∨ ∃ capability ∈ role.capabilities, action ∈ capability.actions

structure Role.Sound (role : Role) : Prop where
  named : role.roleId ∉ forbiddenRoleAliases
  capabilities : (role.capabilities.map Capability.capabilityId).Nodup
  granted : ∀ action, role.Grants action → action ∉ role.forbiddenActions

def rolesOf (value : Json) : List Role := (value.get "roles").items.map Role.of

structure Semantic (value : Json) : Prop where
  unique : ((rolesOf value).map Role.roleId).Nodup
  declared : (value.get "default_role").text ∈ (rolesOf value).map Role.roleId
  sound : ∀ role ∈ rolesOf value, role.Sound

/-! Where the validator and the schemas part. -/

/-- The checks come to this worktree mode. -/
def Reached (value mode : Json) : Prop :=
  value.hasExactly registryNames = true ∧ (value.get "roles").isArr = true ∧
    (∀ role ∈ (value.get "roles").items, role.isObj = true) ∧
    ∃ role ∈ (value.get "roles").items, role.hasExactly roleNames = true ∧
      (role.get "worktree_policy").hasExactly worktreeNames = true ∧ (role.get "worktree_policy").get "mode" = mode

/-- The versions are written as integers. -/
structure Integral (value : Json) : Prop where
  registry : (value.get "schema_version").exactInt?.isSome = true
  roles : ∀ role ∈ (value.get "roles").items, (role.get "schema_version").exactInt?.isSome = true

/-! Each check finds nothing in exactly what its part of the schema accepts. -/

theorem sorted_isEmpty (names : List String) : (sorted names).isEmpty = names.isEmpty := by
  cases names with
  | nil => rfl
  | cons name rest =>
    have some_ : sorted (name :: rest) ≠ [] := by
      rw [Ne, ← List.length_eq_zero_iff, sorted, List.length_insertionSort]
      exact Nat.succ_ne_zero _
    rw [List.isEmpty_eq_false_iff.mpr some_]
    rfl

theorem exactObject_eq_nil {value : Json} {required : List String} {label : String} :
    exactObject value required label = [] ↔ value.hasExactly required = true := by
  rw [exactObject, Json.hasExactly]
  cases value.isObj with
  | false => simp
  | true =>
    rw [Bool.not_true, if_neg Bool.false_ne_true, List.append_eq_nil_iff, errorIf_eq_nil, errorIf_eq_nil, sorted_isEmpty, sorted_isEmpty]
    simp only [Bool.not_eq_false', List.isEmpty_iff, List.filter_eq_nil_iff, Bool.not_eq_true', Bool.not_eq_false,
      Bool.true_and, Bool.and_eq_true, List.all_eq_true]

theorem exactObject_isEmpty {value : Json} {required : List String} {label : String} :
    (exactObject value required label).isEmpty = value.hasExactly required := by
  rw [Bool.eq_iff_iff, List.isEmpty_iff, exactObject_eq_nil]

theorem stringErrors_eq_nil {value : Json} {label : String} {pattern : String → Bool} {minimum maximum : Nat} :
    stringErrors value label pattern minimum maximum = [] ↔
      ∃ word, value = .str word ∧ pattern word = true ∧ minimum ≤ word.length ∧ word.length ≤ maximum := by
  cases value with
  | str word =>
    rw [stringErrors]
    simp only [Json.str.injEq, exists_eq_left']
    split_ifs with outside
    · refine iff_of_false not_false fun ⟨_, low, high⟩ => ?_
      simp [low, high] at outside
    · simp only [Bool.not_eq_true', Bool.not_eq_false, Bool.and_eq_true, decide_eq_true_eq] at outside
      rw [errorIf_eq_nil, Bool.not_eq_false']
      exact ⟨fun fits => ⟨fits, outside⟩, And.left⟩
  | _ => exact iff_of_false (List.cons_ne_nil _ _) nofun

theorem shape_length {first rest : Char → Bool} {low high : Nat} {word : String} (fits : Text.shape first rest low high word = true) :
    low + 1 ≤ word.length ∧ word.length ≤ high + 1 := by
  rw [Text.shape, Text.characters_eq] at fits
  rw [← String.length_toList]
  split at fits
  next => cases fits
  next c cs spelled =>
    simp only [Bool.and_eq_true, decide_eq_true_eq] at fits
    rw [spelled, List.length_cons]
    exact ⟨Nat.succ_le_succ fits.1.2, Nat.succ_le_succ fits.2⟩

/-- A pattern that bounds the length of its texts needs no further bounds. -/
theorem stringErrors_pattern {value : Json} {label : String} {pattern : String → Bool} {minimum maximum : Nat}
    (bounds : ∀ word, pattern word = true → minimum ≤ word.length ∧ word.length ≤ maximum) :
    stringErrors value label pattern minimum maximum = [] ↔ accepts (.string pattern 0 none) value = true := by
  rw [stringErrors_eq_nil, accepts_string]
  refine exists_congr fun word => and_congr_right fun _ => ?_
  exact ⟨fun ⟨fits, _⟩ => ⟨fits, Nat.zero_le _, nofun⟩, fun ⟨fits, _⟩ => ⟨fits, bounds word fits⟩⟩

theorem roleId_errors {value : Json} {label : String} :
    stringErrors value label isRoleId 3 64 = [] ↔ accepts roleIdSchema value = true :=
  stringErrors_pattern fun _ => shape_length

theorem boundedErrors_eq_nil {value : Json} {maximum : Nat} {message : String} :
    boundedErrors value maximum message = [] ↔ accepts (.string anyText 1 (some maximum)) value = true := by
  rw [boundedErrors, errorIf_eq_nil, Bool.not_eq_false', accepts, anyText, Bool.and_true]
  rfl

/-- Lists of different texts under a pattern that keeps them short. -/
theorem uniqueStrings_eq_nil {value : Json} {label : String} {minimum : Nat} {pattern other : String → Bool} {limit : Option Nat}
    {low : Nat} (agree : ∀ word : String, (pattern word = true ∧ 1 ≤ word.length ∧ word.length ≤ 200) ↔
      (other word = true ∧ low ≤ word.length ∧ ∀ high ∈ limit, word.length ≤ high)) :
    uniqueStrings value label minimum pattern = [] ↔ accepts (.array minimum true (.string other low limit)) value = true := by
  rw [accepts_array, uniqueStrings]
  cases texts : strings? value with
  | none =>
    refine iff_of_false (List.cons_ne_nil _ _) ?_
    rintro ⟨values, rfl, -, -, each⟩
    rw [strings?, if_pos] at texts
    · cases texts
    · refine List.all_eq_true.mpr fun item member => ?_
      obtain ⟨word, rfl, -⟩ := accepts_string.mp (each item member)
      rfl
  | some words =>
    obtain rfl := strings?_eq_some.mp texts
    have each : (∀ item ∈ words.map Json.str, accepts (.string other low limit) item = true) ↔
        ∀ word ∈ words, stringErrors (.str word) label pattern 1 200 = [] := by
      rw [List.forall_mem_map]
      refine forall₂_congr fun word _ => ?_
      rw [accepts_string, stringErrors_eq_nil]
      simp only [Json.str.injEq, exists_eq_left']
      exact (agree word).symm
    simp only [Json.arr.injEq, exists_eq_left', List.length_map, unique_strs, each, true_imp_iff]
    split_ifs with few twice
    · exact iff_of_false not_false fun kept => absurd few (Nat.not_lt.mpr kept.1)
    · refine iff_of_false not_false fun kept => ?_
      simp [kept.2.1] at twice
    · rw [List.flatMap_eq_nil_iff]
      exact ⟨fun none_ => ⟨Nat.not_lt.mp few, by simpa using twice, none_⟩, fun kept => kept.2.2⟩

theorem pattern_agree {pattern : String → Bool} (bounds : ∀ word, pattern word = true → 1 ≤ word.length ∧ word.length ≤ 200)
    (word : String) : (pattern word = true ∧ 1 ≤ word.length ∧ word.length ≤ 200) ↔
      (pattern word = true ∧ 0 ≤ word.length ∧ ∀ high ∈ (none : Option Nat), word.length ≤ high) :=
  ⟨fun ⟨fits, _⟩ => ⟨fits, Nat.zero_le _, nofun⟩, fun ⟨fits, _⟩ => ⟨fits, bounds word fits⟩⟩

theorem action_errors {value : Json} {label : String} {minimum : Nat} :
    uniqueStrings value label minimum isAction = [] ↔ accepts (.array minimum true actionSchema) value = true :=
  uniqueStrings_eq_nil (pattern_agree fun _ fits => by
    have bounds := shape_length fits
    omega)

theorem publicRef_errors {value : Json} {label : String} {minimum : Nat} :
    uniqueStrings value label minimum isPublicRef = [] ↔ accepts (.array minimum true publicRefSchema) value = true :=
  uniqueStrings_eq_nil (pattern_agree fun _ fits => by
    have bounds := shape_length fits
    omega)

theorem path_errors {value : Json} {label : String} :
    uniqueStrings value label 1 isPath = [] ↔ accepts (.array 1 true (.string anyText 1 (some 200))) value = true := by
  refine uniqueStrings_eq_nil fun word => ?_
  simp [isPath, anyText]

theorem versionErrors_eq_nil {value : Json} {message : String} :
    versionErrors value message = [] ↔ accepts (.const (.int 1)) value = true ∧ value.exactInt?.isSome = true := by
  rw [versionErrors, errorIf_eq_nil, bne_eq_false_iff_eq, accepts]
  cases value <;> simp [Json.exactInt?, equal]

theorem forall_closed {properties : List (String × Schema)} {value : Json} (exactly : value.hasExactly (properties.map Prod.fst) = true) :
    accepts (.closed properties) value = true ↔ ∀ property ∈ properties, accepts property.2 (value.get property.1) = true := by
  rw [accepts_closed]
  exact and_iff_right exactly

theorem not_accepts {properties : List (String × Schema)} {value : Json}
    (inexact : ¬value.hasExactly (properties.map Prod.fst) = true) : ¬accepts (.closed properties) value = true := fun accepted =>
  inexact (accepts_closed.mp accepted).1

theorem capabilityErrors_eq_nil {value : Json} : capabilityErrors value = [] ↔ accepts capabilitySchema value = true := by
  unfold capabilityErrors capabilitySchema
  dsimp only
  rw [exactObject_isEmpty]
  by_cases exactly : value.hasExactly capabilityNames = true
  · rw [exactly, forall_closed exactly, Bool.not_true, if_neg Bool.false_ne_true]
    simp only [List.append_eq_nil_iff, roleId_errors, boundedErrors_eq_nil, action_errors, errorIf_eq_nil, Bool.not_eq_false',
      List.forall_mem_cons, List.not_mem_nil, false_imp_iff, implies_true, and_true, and_assoc, accepts_enum]
    simp only [List.any_eq_true, Json.beq_str]
  · refine iff_of_false ?_ (not_accepts exactly)
    rw [if_pos (by simpa using exactly), exactObject_eq_nil]
    exact exactly

theorem isObj_of_accepts {properties : List (String × Schema)} {value : Json} (accepted : accepts (.closed properties) value = true) :
    value.isObj = true := by
  have exactly := (accepts_closed.mp accepted).1
  simp only [Json.hasExactly, Bool.and_eq_true] at exactly
  exact exactly.1.1

theorem capabilitiesErrors_eq_nil {value : Json} :
    capabilitiesErrors value = [] ↔ accepts (.array 1 false capabilitySchema) value = true := by
  rw [accepts_array]
  cases value with
  | arr items =>
    simp only [Json.arr.injEq, exists_eq_left', Bool.false_eq_true, false_imp_iff, true_and]
    cases items with
    | nil => exact iff_of_false (List.cons_ne_nil _ _) (by simp)
    | cons item rest =>
      rw [capabilitiesErrors]
      · have each : (∀ item_ ∈ item :: rest, accepts capabilitySchema item_ = true) ↔ ∀ item_ ∈ item :: rest, capabilityErrors item_ = [] :=
          forall₂_congr fun _ _ => capabilityErrors_eq_nil.symm
        split_ifs with objects
        · rw [List.flatMap_eq_nil_iff, each]
          exact ⟨fun none_ => ⟨by simp, none_⟩, And.right⟩
        · refine iff_of_false not_false fun ⟨_, accepted⟩ => objects ?_
          exact List.all_eq_true.mpr fun item_ member => isObj_of_accepts (accepted item_ member)
      · simp
  | _ => exact iff_of_false (List.cons_ne_nil _ _) nofun

theorem worktreeErrors_returns {worktree : Json} : (∃ errors, worktreeErrors worktree = .ok errors) ↔
    (worktree.hasExactly worktreeNames = true → hashable (worktree.get "mode") = true) := by
  rw [worktreeErrors, isIn]
  cases worktree.hasExactly worktreeNames with
  | false => exact iff_of_true ⟨_, rfl⟩ (by rintro ⟨⟩)
  | true =>
    cases hashable (worktree.get "mode") with
    | true => exact iff_of_true ⟨_, rfl⟩ fun _ => rfl
    | false => exact iff_of_false (by rintro ⟨_, ⟨⟩⟩) fun fine => absurd (fine rfl) Bool.false_ne_true

theorem worktreeErrors_eq_nil {worktree : Json} (exactly : worktree.hasExactly worktreeNames = true) :
    worktreeErrors worktree = .ok [] ↔ accepts worktreePolicySchema worktree = true := by
  rw [worktreePolicySchema, forall_closed exactly]
  simp only [List.forall_mem_cons, List.not_mem_nil, false_imp_iff, implies_true, and_true, accepts_enum]
  by_cases fine : hashable (worktree.get "mode") = true
  · rw [worktreeErrors, exactly, Bool.not_true, if_neg Bool.false_ne_true, isIn_of_hashable fine, ok_bind, pure_eq_ok,
      List.append_eq_nil_iff, errorIf_eq_nil, path_errors]
    simp only [Bool.not_eq_false', List.any_eq_true, Json.beq_str]
  · refine iff_of_false (fun returned => fine (worktreeErrors_returns.mp ⟨_, returned⟩ exactly)) ?_
    rintro ⟨⟨word, -, mode⟩, -⟩
    rw [mode] at fine
    exact fine rfl

theorem exists_value {α β : Type} {p : α → Prop} {f : α → β} : (∃ b a, p a ∧ f a = b) ↔ ∃ a, p a := by
  rw [exists_comm]
  simp

theorem rolePolicyErrors_returns {value : Json} : (∃ errors, rolePolicyErrors value = .ok errors) ↔
    ((value.get "worktree_policy").hasExactly worktreeNames = true → hashable ((value.get "worktree_policy").get "mode") = true) := by
  rw [rolePolicyErrors, ← worktreeErrors_returns]
  simp only [bind_eq_ok, pure_eq_ok]
  exact exists_value

theorem toolErrors_eq_nil {policy : Json} :
    (exactObject policy toolNames "tool_policy" = [] ∧ (if policy.hasExactly toolNames then
      uniqueStrings (policy.get "allow") "tool_policy allow" 0 isAction ++
        uniqueStrings (policy.get "deny") "tool_policy deny" 0 isAction else []) = []) ↔ accepts toolPolicySchema policy = true := by
  rw [exactObject_eq_nil, toolPolicySchema, accepts_closed]
  refine and_congr_right fun exactly => ?_
  rw [if_pos exactly]
  simp only [List.append_eq_nil_iff, action_errors, List.forall_mem_cons, List.not_mem_nil, false_imp_iff, implies_true, and_true]

theorem rolePolicyErrors_eq_nil {value : Json} : rolePolicyErrors value = .ok [] ↔
    accepts toolPolicySchema (value.get "tool_policy") = true ∧ accepts worktreePolicySchema (value.get "worktree_policy") = true := by
  rw [rolePolicyErrors, ← toolErrors_eq_nil]
  simp only [bind_eq_ok, pure_eq_ok, List.append_eq_nil_iff]
  constructor
  · rintro ⟨found, returned, ⟨tools, exactly⟩, rfl⟩
    exact ⟨tools, (worktreeErrors_eq_nil (exactObject_eq_nil.mp exactly)).mp returned⟩
  · rintro ⟨tools, accepted⟩
    have exactly := (accepts_closed.mp accepted).1
    exact ⟨[], (worktreeErrors_eq_nil exactly).mpr accepted, ⟨tools, exactObject_eq_nil.mpr exactly⟩, rfl⟩

theorem roleErrors_returns {value : Json} : (∃ errors, roleErrors value = .ok errors) ↔
    (value.hasExactly roleNames = true → (value.get "worktree_policy").hasExactly worktreeNames = true →
      hashable ((value.get "worktree_policy").get "mode") = true) := by
  rw [roleErrors]
  rw [exactObject_isEmpty]
  by_cases exactly : value.hasExactly roleNames = true
  · rw [exactly, Bool.not_true, if_neg Bool.false_ne_true]
    simp only [bind_eq_ok, pure_eq_ok, true_imp_iff]
    rw [← rolePolicyErrors_returns]
    exact exists_value
  · rw [if_pos (by simpa using exactly)]
    exact iff_of_true ⟨_, rfl⟩ fun exact_ => absurd exact_ exactly

theorem roleErrors_eq_nil {value : Json} : roleErrors value = .ok [] ↔
    accepts roleSchema value = true ∧ (value.get "schema_version").exactInt?.isSome = true := by
  rw [roleErrors, roleSchema]
  rw [exactObject_isEmpty]
  by_cases exactly : value.hasExactly roleNames = true
  · rw [exactly, forall_closed exactly, Bool.not_true, if_neg Bool.false_ne_true]
    simp only [bind_eq_ok, pure_eq_ok, List.append_eq_nil_iff, versionErrors_eq_nil, roleId_errors, boundedErrors_eq_nil,
      capabilitiesErrors_eq_nil, action_errors, publicRef_errors, List.forall_mem_cons, List.not_mem_nil, false_imp_iff,
      implies_true, and_true]
    constructor
    · rintro ⟨_, policies, ⟨⟨⟨⟨⟨⟨⟨version, integral⟩, roleId⟩, title⟩, summary⟩, capabilities⟩, forbidden⟩, rfl⟩, refs⟩
      obtain ⟨tool, worktree⟩ := rolePolicyErrors_eq_nil.mp policies
      exact ⟨⟨version, roleId, title, summary, capabilities, forbidden, tool, worktree, refs⟩, integral⟩
    · rintro ⟨⟨version, roleId, title, summary, capabilities, forbidden, tool, worktree, refs⟩, integral⟩
      exact ⟨[], rolePolicyErrors_eq_nil.mpr ⟨tool, worktree⟩,
        ⟨⟨⟨⟨⟨⟨⟨version, integral⟩, roleId⟩, title⟩, summary⟩, capabilities⟩, forbidden⟩, rfl⟩, refs⟩
  · refine iff_of_false ?_ fun accepted => not_accepts exactly accepted.1
    rw [if_pos (by simpa using exactly), pure_eq_ok, exactObject_eq_nil]
    exact exactly

theorem rolesErrors_eq_nil {value : Json} : rolesErrors value = .ok [] ↔
    accepts (.array 1 false roleSchema) value = true ∧ ∀ role ∈ value.items, (role.get "schema_version").exactInt?.isSome = true := by
  rw [accepts_array]
  cases value with
  | arr items =>
    simp only [Json.arr.injEq, exists_eq_left', Bool.false_eq_true, false_imp_iff, true_and, Json.items]
    cases items with
    | nil => exact iff_of_false (by rintro ⟨⟩) (by simp)
    | cons item rest =>
      rw [rolesErrors]
      · split_ifs with objects
        · simp only [bind_eq_ok, pure_eq_ok]
          rw [mapM_flatten_eq_nil, and_assoc, ← forall₂_and]
          exact ⟨fun none_ => ⟨by simp, fun role member => roleErrors_eq_nil.mp (none_ role member)⟩,
            fun each role member => roleErrors_eq_nil.mpr (each.2 role member)⟩
        · refine iff_of_false (by rintro ⟨⟩) fun accepted => objects ?_
          exact List.all_eq_true.mpr fun role member => isObj_of_accepts (accepted.1.2 role member)
      · simp
  | _ => exact iff_of_false (by rintro ⟨⟩) (by rintro ⟨⟨_, ⟨⟩, _⟩, _⟩)

theorem rolesErrors_returns {value : Json} : (∃ errors, rolesErrors value = .ok errors) ↔
    (value.isArr = true → (∀ role ∈ value.items, role.isObj = true) → ∀ role ∈ value.items, role.hasExactly roleNames = true →
      (role.get "worktree_policy").hasExactly worktreeNames = true → hashable ((role.get "worktree_policy").get "mode") = true) := by
  cases value with
  | arr items =>
    cases items with
    | nil => exact iff_of_true ⟨_, rfl⟩ (by simp [Json.items])
    | cons item rest =>
      rw [rolesErrors]
      · split_ifs with objects
        · simp only [bind_eq_ok, pure_eq_ok, Json.isArr, Json.items, true_imp_iff]
          rw [List.all_eq_true] at objects
          rw [imp_iff_right objects]
          simp only [← roleErrors_returns]
          rw [← mapM_returns]
          exact exists_value
        · exact iff_of_true ⟨_, rfl⟩ fun _ all_ => absurd (List.all_eq_true.mpr all_) objects
      · simp
  | _ => exact iff_of_true ⟨_, rfl⟩ (by rintro ⟨⟩)

/-- The structural checks find nothing in exactly what the schemas accept with versions that are integers. -/
theorem schemaErrors_eq_nil {value : Json} :
    schemaErrors value = .ok [] ↔ accepts registrySchema value = true ∧ Integral value := by
  have integral : Integral value ↔ (value.get "schema_version").exactInt?.isSome = true ∧
      ∀ role ∈ (value.get "roles").items, (role.get "schema_version").exactInt?.isSome = true :=
    ⟨fun both => ⟨both.1, both.2⟩, fun both => ⟨both.1, both.2⟩⟩
  rw [schemaErrors, registrySchema, integral]
  rw [exactObject_isEmpty]
  by_cases exactly : value.hasExactly registryNames = true
  · rw [exactly, forall_closed exactly, Bool.not_true, if_neg Bool.false_ne_true]
    simp only [bind_eq_ok, pure_eq_ok, List.append_eq_nil_iff, versionErrors_eq_nil, roleId_errors, publicRef_errors,
      List.forall_mem_cons, List.not_mem_nil, false_imp_iff, implies_true, and_true]
    constructor
    · rintro ⟨_, roles, ⟨⟨⟨⟨version, first⟩, registryId⟩, rfl⟩, default_⟩, refs⟩
      obtain ⟨accepted, each⟩ := rolesErrors_eq_nil.mp roles
      exact ⟨⟨version, registryId, accepted, default_, refs⟩, first, each⟩
    · rintro ⟨⟨version, registryId, accepted, default_, refs⟩, first, each⟩
      exact ⟨[], rolesErrors_eq_nil.mpr ⟨accepted, each⟩, ⟨⟨⟨⟨version, first⟩, registryId⟩, rfl⟩, default_⟩, refs⟩
  · refine iff_of_false ?_ fun accepted => not_accepts exactly accepted.1
    rw [if_pos (by simpa using exactly), pure_eq_ok, exactObject_eq_nil]
    exact exactly

/-- The structural checks come to an end unless they meet a worktree mode that cannot be hashed. -/
theorem schemaErrors_returns {value : Json} :
    (∃ errors, schemaErrors value = .ok errors) ↔ ∀ mode, Reached value mode → hashable mode = true := by
  rw [schemaErrors]
  rw [exactObject_isEmpty]
  by_cases exactly : value.hasExactly registryNames = true
  · rw [exactly, Bool.not_true, if_neg Bool.false_ne_true]
    simp only [bind_eq_ok, pure_eq_ok]
    have inner : (∃ errors roles, rolesErrors (value.get "roles") = .ok roles ∧
        versionErrors (value.get "schema_version") "registry schema_version must be 1" ++
          stringErrors (value.get "registry_id") "registry_id" isRoleId 3 64 ++ roles ++
          stringErrors (value.get "default_role") "default_role" isRoleId 3 64 ++
          uniqueStrings (value.get "default_awq_profile_refs") "default_awq_profile_refs" 1 isPublicRef = errors) ↔
        ∃ roles, rolesErrors (value.get "roles") = .ok roles :=
      exists_value
    rw [inner, rolesErrors_returns]
    constructor
    · rintro fine mode ⟨-, list, objects, role, member, exact_, worktree, rfl⟩
      exact fine list objects role member exact_ worktree
    · exact fun fine list objects role member exact_ worktree => fine _ ⟨exactly, list, objects, role, member, exact_, worktree, rfl⟩
  · rw [if_pos (by simpa using exactly)]
    exact iff_of_true ⟨_, rfl⟩ fun mode reached => absurd reached.1 exactly

/-! The rules are asked of registries that the schemas accept, and each access finds what it needs there. -/

theorem text_of_accepts {pattern : String → Bool} {low : Nat} {high : Option Nat} {value : Json}
    (accepted : accepts (.string pattern low high) value = true) : value = .str value.text := by
  obtain ⟨word, rfl, -⟩ := accepts_string.mp accepted
  rfl

theorem texts_of_accepts {minimum low : Nat} {unique : Bool} {pattern : String → Bool} {high : Option Nat} {value : Json}
    (accepted : accepts (.array minimum unique (.string pattern low high)) value = true) :
    value = .arr ((textsOf value).map .str) := by
  obtain ⟨items, rfl, -, -, each⟩ := accepts_array.mp accepted
  rw [textsOf, Json.items, List.map_map]
  refine congrArg Json.arr ((List.map_id items).symm.trans (List.map_congr_left fun item member => ?_))
  exact text_of_accepts (each item member)

/-- What the rules read of a capability. -/
theorem capability_reads {capability : Json} (accepted : accepts capabilitySchema capability = true) :
    subscript capability "capability_id" = .ok (.str (Capability.of capability).capabilityId) ∧
      (subscript capability "actions" >>= iterate) = .ok ((Capability.of capability).actions.map .str) := by
  obtain ⟨exactly, each⟩ := accepts_closed.mp accepted
  simp only [List.forall_mem_cons] at each
  obtain ⟨capabilityId, -, actions, -⟩ := each
  have named : "capability_id" ∈ capabilityNames := by decide
  have listed : "actions" ∈ capabilityNames := by decide
  rw [subscript_of_exact exactly named, subscript_of_exact exactly listed, ok_bind, texts_of_accepts actions]
  exact ⟨congrArg Except.ok (text_of_accepts capabilityId), rfl⟩

/-- What the rules read of a role. -/
structure Reads (role : Json) (capabilities : List Json) : Prop where
  roleId : subscript role "role_id" = .ok (.str (Role.of role).roleId)
  listed : subscript role "capabilities" = .ok (.arr capabilities)
  each : ∀ capability ∈ capabilities, accepts capabilitySchema capability = true
  held : (Role.of role).capabilities = capabilities.map Capability.of
  forbiddenActions : subscript role "forbidden_actions" = .ok (.arr ((Role.of role).forbiddenActions.map .str))
  policy : subscript role "tool_policy" = .ok (role.get "tool_policy")
  allow : subscript (role.get "tool_policy") "allow" = .ok (.arr ((Role.of role).allow.map .str))

theorem role_reads {role : Json} (accepted : accepts roleSchema role = true) : ∃ capabilities, Reads role capabilities := by
  obtain ⟨exactly, each⟩ := accepts_closed.mp accepted
  simp only [List.forall_mem_cons] at each
  obtain ⟨-, roleId, -, -, capabilities, forbidden, tool, -, -⟩ := each
  obtain ⟨toolExactly, tools⟩ := accepts_closed.mp tool
  simp only [List.forall_mem_cons] at tools
  obtain ⟨items, list, -, -, held⟩ := accepts_array.mp capabilities
  have read (name : String) (known : name ∈ roleNames) := subscript_of_exact exactly known
  have allowed : "allow" ∈ toolNames := by decide
  refine ⟨items, ?_, ?_, held, ?_, ?_, read "tool_policy" (by decide), ?_⟩
  · exact (read "role_id" (by decide)).trans (congrArg Except.ok (text_of_accepts roleId))
  · exact (read "capabilities" (by decide)).trans (congrArg Except.ok list)
  · exact congrArg (fun value => (Json.items value).map Capability.of) list
  · exact (read "forbidden_actions" (by decide)).trans (congrArg Except.ok (texts_of_accepts forbidden))
  · exact (subscript_of_exact toolExactly allowed).trans (congrArg Except.ok (texts_of_accepts tools.1))

theorem overlapOf_isEmpty {actions forbidden : List String} :
    (overlapOf (actions.map .str) (forbidden.map .str)).isEmpty = true ↔ ∀ action ∈ actions, action ∉ forbidden := by
  rw [overlapOf, sorted_isEmpty, List.isEmpty_iff, List.dedup_eq_nil, List.map_eq_nil_iff, List.filter_eq_nil_iff, List.forall_mem_map]
  simp only [any_strs]

/-- The rules of one role are read to the end, and find nothing in exactly the sound roles. -/
theorem roleSemantics_sound {role : Json} (accepted : accepts roleSchema role = true) :
    ∃ errors, roleSemantics role = .ok errors ∧ (errors = [] ↔ (Role.of role).Sound) := by
  obtain ⟨capabilities, reads⟩ := role_reads accepted
  have ids : capabilities.mapM (subscript · "capability_id") =
      .ok (((Role.of role).capabilities.map Capability.capabilityId).map .str) := by
    rw [reads.held, List.map_map, List.map_map]
    exact mapM_ok fun capability member => (capability_reads (reads.each capability member)).1
  have actions : (capabilities.mapM fun capability => subscript capability "actions" >>= iterate) =
      .ok (capabilities.map fun capability => (Capability.of capability).actions.map .str) :=
    mapM_ok fun capability member => (capability_reads (reads.each capability member)).2
  have flat : (capabilities.map fun capability => (Capability.of capability).actions.map Json.str).flatten =
      ((Role.of role).capabilities.flatMap Capability.actions).map .str := by
    rw [reads.held, List.map_flatMap, List.flatMap_map, List.flatMap_def]
  rw [roleSemantics, reads.roleId, ok_bind, isIn_of_hashable rfl, ok_bind, reads.listed, ok_bind, iterate, ok_bind, ids, ok_bind,
    hashed_strs, ok_bind, reads.forbiddenActions, ok_bind, setOf_strs, ok_bind, reads.policy, ok_bind, reads.allow, ok_bind,
    setOf_strs, ok_bind, actions, ok_bind, flat, hashed_strs, ok_bind]
  refine ⟨_, rfl, ?_⟩
  simp only [List.append_eq_nil_iff, errorIf_eq_nil, Bool.not_eq_false', distinct_strs, overlapOf_isEmpty, List.mem_flatMap]
  simp only [← Bool.not_eq_true, List.any_map, List.any_eq_true, Function.comp_apply, Json.str_beq_str, beq_iff_eq, not_exists, not_and]
  constructor
  · rintro ⟨⟨⟨named, different⟩, allowed⟩, granted⟩
    refine ⟨fun member => named _ member rfl, different, ?_⟩
    rintro action (tool | ⟨capability, held, acts⟩)
    · exact fun forbidden => allowed action forbidden action tool rfl
    · exact granted action ⟨capability, held, acts⟩
  · intro sound
    refine ⟨⟨⟨?_, sound.capabilities⟩, ?_⟩, fun action held => sound.granted action (.inr held)⟩
    · rintro other member rfl
      exact sound.named member
    · rintro action forbidden other allowed rfl
      exact sound.granted _ (.inl allowed) forbidden

/-- The rules are read to the end, and find nothing in exactly the registries that follow them. -/
theorem semanticErrors_semantic {value : Json} (accepted : accepts registrySchema value = true) :
    ∃ errors, semanticErrors value = .ok errors ∧ (errors = [] ↔ Semantic value) := by
  obtain ⟨exactly, each⟩ := accepts_closed.mp accepted
  simp only [List.forall_mem_cons] at each
  obtain ⟨-, -, roles, default_, -⟩ := each
  obtain ⟨items, list, -, -, held⟩ := accepts_array.mp roles
  have held_ : rolesOf value = items.map Role.of := congrArg (fun roles => (Json.items roles).map Role.of) list
  have ids : items.mapM (subscript · "role_id") = .ok (((rolesOf value).map Role.roleId).map .str) := by
    rw [held_, List.map_map, List.map_map]
    refine mapM_ok fun role member => ?_
    obtain ⟨capabilities, reads⟩ := role_reads (held role member)
    exact reads.roleId
  obtain ⟨found, ran⟩ := mapM_returns.mpr fun role member =>
    have ⟨errors, returned, _⟩ := roleSemantics_sound (held role member)
    ⟨errors, returned⟩
  have none_ : found.flatten = [] ↔ ∀ role ∈ rolesOf value, role.Sound := by
    have each_ : found.flatten = [] ↔ ∀ role ∈ items, roleSemantics role = .ok [] := by
      rw [← mapM_flatten_eq_nil, ran]
      simp
    rw [each_, held_, List.forall_mem_map]
    refine forall₂_congr fun role member => ?_
    obtain ⟨errors, returned, sound⟩ := roleSemantics_sound (held role member)
    rw [returned, ← sound, Except.ok.injEq]
  have roles_ : "roles" ∈ registryNames := by decide
  have defaulted : "default_role" ∈ registryNames := by decide
  rw [semanticErrors, subscript_of_exact exactly roles_, ok_bind, list, iterate, ok_bind, ids, ok_bind, hashed_strs, ok_bind,
    subscript_of_exact exactly defaulted, ok_bind, ran, ok_bind]
  refine ⟨_, rfl, ?_⟩
  rw [text_of_accepts default_]
  simp only [List.append_eq_nil_iff, errorIf_eq_nil, Bool.not_eq_false', distinct_strs, none_, List.any_map, List.any_eq_true,
    Function.comp_apply, Json.str_beq_str, beq_iff_eq]
  constructor
  · rintro ⟨⟨unique, other, member, same⟩, sound⟩
    exact ⟨unique, List.mem_map.mpr ⟨other, member, same⟩, sound⟩
  · exact fun semantic => ⟨⟨semantic.unique, List.mem_map.mp semantic.declared⟩, semantic.sound⟩

/-! The whole validation. -/

/-- An exception of the interpreter, not one of the validator's own. -/
def Foreign : Raised → Prop
  | .own _ => False
  | _ => True

theorem roleErrors_foreign (value : Json) : Raises Foreign (roleErrors value) := by
  have worktree (value : Json) : Raises Foreign (worktreeErrors value) :=
    .ite (.ok _) (.bind (.isIn _ _ fun _ => trivial) fun _ _ => .ok _)
  exact .ite (.ok _) (.bind (.bind (worktree _) fun _ _ => .ok _) fun _ _ => .ok _)

theorem schemaErrors_foreign (value : Json) : Raises Foreign (schemaErrors value) := by
  have roles (value : Json) : Raises Foreign (rolesErrors value) := by
    unfold rolesErrors
    split
    next => exact .ok _
    next => exact .ite (.bind (.mapM fun role _ => roleErrors_foreign role) fun _ _ => .ok _) (.ok _)
    next => exact .ok _
  exact .ite (.ok _) (.bind (roles _) fun _ _ => .ok _)

theorem semanticErrors_foreign (value : Json) : Raises Foreign (semanticErrors value) := by
  have read (value : Json) (key : String) : Raises Foreign (subscript value key) := .subscript _ _ (fun _ => trivial) trivial
  have each (value : Json) : Raises Foreign (iterate value) := .iterate _ fun _ => trivial
  have hashes (items : List Json) : Raises Foreign (hashed items) := .hashed _ fun _ => trivial
  have set (value : Json) : Raises Foreign (Access.setOf value) := .setOf _ fun _ => trivial
  have role (role : Json) : Raises Foreign (roleSemantics role) :=
    .bind (read _ _) fun _ _ => .bind (.isIn _ _ fun _ => trivial) fun _ _ => .bind (read _ _) fun _ _ => .bind (each _) fun _ _ =>
      .bind (.mapM fun _ _ => read _ _) fun _ _ => .bind (hashes _) fun _ _ => .bind (read _ _) fun _ _ => .bind (set _) fun _ _ =>
        .bind (read _ _) fun _ _ => .bind (read _ _) fun _ _ => .bind (set _) fun _ _ =>
          .bind (.mapM fun _ _ => .bind (read _ _) fun _ _ => each _) fun _ _ => .bind (hashes _) fun _ _ => .ok _
  exact .bind (read _ _) fun _ _ => .bind (each _) fun _ _ => .bind (.mapM fun _ _ => read _ _) fun _ _ => .bind (hashes _) fun _ _ =>
    .bind (read _ _) fun _ _ => .bind (.mapM fun _ _ => role _) fun _ _ => .ok _

theorem registryErrors_foreign (value : Json) : Raises Foreign (registryErrors value) :=
  .ite (.ok _) (.bind (schemaErrors_foreign value) fun _ _ => .ite (.ok _) (semanticErrors_foreign value))

theorem registryErrors_eq_nil {value : Json} :
    registryErrors value = .ok [] ↔ accepts registrySchema value = true ∧ Integral value ∧ Semantic value := by
  rw [registryErrors]
  cases object : value.isObj with
  | false => exact iff_of_false nofun fun ⟨accepted, _⟩ => by rw [isObj_of_accepts accepted] at object; cases object
  | true =>
    rw [Bool.not_true, if_neg Bool.false_ne_true, bind_eq_ok, ← and_assoc, ← schemaErrors_eq_nil]
    constructor
    · rintro ⟨errors, checked, returned⟩
      cases errors with
      | cons first rest => cases returned
      | nil =>
        obtain ⟨found, ran, semantic⟩ := semanticErrors_semantic (schemaErrors_eq_nil.mp checked).1
        have same : semanticErrors value = .ok [] := returned
        rw [ran, Except.ok.injEq] at same
        exact ⟨checked, semantic.mp same⟩
    · rintro ⟨checked, holds⟩
      obtain ⟨found, ran, semantic⟩ := semanticErrors_semantic (schemaErrors_eq_nil.mp checked).1
      rw [semantic.mpr holds] at ran
      exact ⟨[], checked, ran⟩

theorem registryErrors_returns {value : Json} :
    (∃ errors, registryErrors value = .ok errors) ↔ ∀ mode, Reached value mode → hashable mode = true := by
  rw [registryErrors, ← schemaErrors_returns]
  cases object : value.isObj with
  | false =>
    have inexact : (exactObject value registryNames "role registry").isEmpty = false := by
      rw [exactObject_isEmpty, Json.hasExactly, object]
      rfl
    refine iff_of_true ⟨_, rfl⟩ ?_
    rw [schemaErrors, inexact]
    exact ⟨_, rfl⟩
  | true =>
    rw [Bool.not_true, if_neg Bool.false_ne_true]
    constructor
    · rintro ⟨errors, returned⟩
      obtain ⟨found, checked, -⟩ := bind_eq_ok.mp returned
      exact ⟨found, checked⟩
    · rintro ⟨found, checked⟩
      rw [checked, ok_bind]
      cases found with
      | cons first rest => exact ⟨_, rfl⟩
      | nil =>
        obtain ⟨errors, ran, -⟩ := semanticErrors_semantic (schemaErrors_eq_nil.mp checked).1
        exact ⟨errors, ran⟩

theorem validateRegistry_accepts {value : Json} :
    (∃ registry, validateRegistry value = .ok registry) ↔ registryErrors value = .ok [] := by
  rw [validateRegistry]
  simp only [bind_eq_ok, raiseIf_eq_ok, exists_unit, Bool.not_eq_false', pure_eq_ok, List.isEmpty_iff]
  constructor
  · rintro ⟨registry, errors, returned, rfl, -⟩
    exact returned
  · intro returned
    exact ⟨value, [], returned, rfl, isObj_of_accepts (registryErrors_eq_nil.mp returned).1, rfl⟩

/-- Validation raises only errors of its own when its checks come to an end. -/
theorem validateRegistry_own {value : Json} : (∀ raised, validateRegistry value = .error raised → ∃ message, raised = .own message) ↔
    ∃ errors, registryErrors value = .ok errors := by
  rw [validateRegistry]
  cases checked : registryErrors value with
  | error raised =>
    refine iff_of_false (fun own => ?_) nofun
    obtain ⟨message, rfl⟩ := own raised rfl
    exact registryErrors_foreign value _ checked
  | ok errors =>
    refine iff_of_true (fun raised failed => ?_) ⟨errors, rfl⟩
    rw [ok_bind] at failed
    obtain first | ⟨_, -, failed⟩ := bind_eq_error.mp failed
    · exact ⟨_, (raiseIf_eq_error.mp first).2.symm⟩
    · obtain second | ⟨_, -, failed⟩ := bind_eq_error.mp failed
      · exact ⟨_, (raiseIf_eq_error.mp second).2.symm⟩
      · cases failed

/-- Validation raises nothing foreign and accepts what schemas and rules do, on exactly the values that confront it with no
list or object for a worktree mode and that are not valid registries with a version written as a decimal. -/
theorem registry_validation_exact (value : Json) :
    ((∀ raised, validateRegistry value = .error raised → ∃ message, raised = .own message) ∧
        ((∃ registry, validateRegistry value = .ok registry) ↔ accepts registrySchema value = true ∧ Semantic value)) ↔
      (∀ mode, Reached value mode → hashable mode = true) ∧
        (accepts registrySchema value = true → Semantic value → Integral value) := by
  rw [validateRegistry_own, registryErrors_returns, validateRegistry_accepts, registryErrors_eq_nil]
  refine and_congr_right fun _ => ⟨fun agree accepted semantic => ?_, fun integral => ?_⟩
  · exact (agree.mpr ⟨accepted, semantic⟩).2.1
  · exact ⟨fun ⟨accepted, _, semantic⟩ => ⟨accepted, semantic⟩, fun ⟨accepted, semantic⟩ =>
      ⟨accepted, integral accepted semantic, semantic⟩⟩

def sampleRole (mode : Json) : Json :=
  .obj [("schema_version", .int 1), ("role_id", .str "implementer"), ("title", .str "Implementer"), ("summary", .str "Writes code."),
    ("capabilities", .arr [.obj [("capability_id", .str "editing"), ("description", .str "Edit files."),
      ("actions", .arr [.str "edit"]), ("scope", .str "write")]]),
    ("forbidden_actions", .arr [.str "deploy"]), ("tool_policy", .obj [("allow", .arr []), ("deny", .arr [])]),
    ("worktree_policy", .obj [("mode", mode), ("path_patterns", .arr [.str "src"])]), ("awq_profile_refs", .arr [])]

def sampleRegistry (version mode : Json) : Json :=
  .obj [("schema_version", version), ("registry_id", .str "default"), ("roles", .arr [sampleRole mode]),
    ("default_role", .str "implementer"), ("default_awq_profile_refs", .arr [.str "profiles/base"])]

theorem sample_semantic (version mode : Json) : Semantic (sampleRegistry version mode) where
  unique := List.nodup_singleton _
  declared := List.mem_singleton.mpr rfl
  sound role member := by
    rw [List.mem_singleton.mp member]
    refine ⟨show "implementer" ∉ forbiddenRoleAliases by decide, List.nodup_singleton _, ?_⟩
    rintro action (tool | ⟨capability, held, acts⟩) forbidden
    · cases tool
    · rw [List.mem_singleton.mp held] at acts
      rw [List.mem_singleton.mp acts] at forbidden
      exact absurd (show "edit" ∈ ["deploy"] from forbidden) (by decide)

example : validateRegistry (sampleRegistry (.int 1) (.str "shared")) = .ok (sampleRegistry (.int 1) (.str "shared")) := by rfl

/-- A list for a mode raises an exception of the interpreter; a version of 1.0 is refused, though the schemas accept it. -/
theorem registry_validation_parts :
    validateRegistry (sampleRegistry (.int 1) (.arr [])) = .error (.typeError "unhashable type: 'list'") ∧
      (accepts registrySchema (sampleRegistry (.float 1 0) (.str "shared")) = true ∧
        Semantic (sampleRegistry (.float 1 0) (.str "shared")) ∧
        validateRegistry (sampleRegistry (.float 1 0) (.str "shared")) =
          .error (.own "schema: registry schema_version must be 1")) :=
  ⟨by rfl, by decide +kernel, sample_semantic _ _, by rfl⟩

end Coordinator.RoleRegistry
