import Coordinator.EnvelopeScope

/-! Replacement of a bound envelope against admission: which launches a successor lets through that its predecessor
did not. -/

namespace Coordinator.ExecutionEnvelope
open Kit

variable {task after : Meta} {envelope old new : Json} {command scope ownerId : String} {launch : Launch} {roots : Roots}
  {world : Moment} {product : Tree} {state : Option Tree} {source : Option (Except String Tree)}

theorem paths_eq_nil {value : Json} {field : String} (clean : paths value field = some []) :
    ∀ item ∈ value.items, pathValid field item = none := by
  rw [paths] at clean
  split at clean
  · cases clean
  · split at clean
    · cases clean
    · simp only [Option.some.injEq, List.append_eq_nil_iff, Option.toList_eq_nil_iff, List.findSome?_eq_none_iff] at clean
      exact clean.2

theorem ruleErrors_eq_nil {value : Json} (clean : ruleErrors value = some []) :
    (value.get "path_scope").hasExactly ["read", "write"] = true ∧
      paths ((value.get "path_scope").get "read") "path_scope.read" = some [] ∧
      paths ((value.get "path_scope").get "write") "path_scope.write" = some [] ∧
      (value.get "command_classes").isObj = true ∧
      ∀ entry ∈ (value.get "command_classes").fields, validCommandRule entry.2 = true := by
  rw [ruleErrors] at clean
  by_cases exact_ : (value.get "path_scope").hasExactly ["read", "write"] = true <;>
    by_cases stops : bounded (value.get "stop_conditions") = true <;>
    simp only [exact_, stops, Bool.not_true, Bool.not_false, Bool.false_eq_true, if_false, if_true, Option.bind_eq_bind,
      Option.bind_eq_some_iff, Option.some.injEq, exists_eq_left', List.append_eq_nil_iff, reduceCtorEq, false_and,
      and_false, exists_false] at clean
  obtain ⟨read, readable, write, written, invalid, -, ⟨⟨rfl, rfl⟩, classed⟩, -⟩ := clean
  refine ⟨exact_, readable, written, ?_⟩
  split at classed
  · cases classed
  · rename_i listed
    simp only [Bool.or_eq_true, not_or, Bool.not_eq_true, Bool.not_eq_false'] at listed
    split at classed
    · cases classed
    · rename_i valid
      exact ⟨listed.1.1, by simpa using valid⟩

/-- What admission relies on in a valid envelope. -/
structure Whole (envelope : Json) : Prop where
  writable : ∀ item ∈ ((envelope.get "path_scope").get "write").items, pathValid "path_scope.write" item = none
  rules : ∀ entry ∈ (envelope.get "command_classes").fields, validCommandRule entry.2 = true
  capabilities : capabilityErrors envelope = []

theorem whole_of_errors (clean : errors envelope = some []) : Whole envelope := by
  rw [errors] at clean
  split at clean
  · cases clean
  · simp only [Option.bind_eq_bind, Option.bind_eq_some_iff, Option.some.injEq, List.append_eq_nil_iff] at clean
    obtain ⟨collections, -, rules, ruled, ⟨⟨-, capable⟩, -⟩, rfl⟩ := clean
    obtain ⟨-, -, written, -, rules⟩ := ruleErrors_eq_nil ruled
    exact ⟨paths_eq_nil written, rules, capable⟩

theorem capabilityAllowed_of_truthy (whole : Whole envelope) {name : String}
    (truthy : (((envelope.get "capabilities").get name).get "allowed").truthy = true) (known : name ∈ capabilityKeys) :
    capabilityAllowed envelope name = true := by
  have clean := whole.capabilities
  rw [capabilityErrors] at clean
  have listed : (envelope.get "capabilities").isNull = false := by
    cases present : envelope.get "capabilities" with
    | null =>
      rw [present] at truthy
      cases truthy
    | _ => rfl
  rw [listed, if_neg Bool.false_ne_true] at clean
  split at clean
  · cases clean
  · split at clean
    · cases clean
    · simp only [Option.toList_eq_nil_iff, List.findSome?_eq_none_iff, ite_eq_left_iff, reduceCtorEq, imp_false,
        Decidable.not_not, Bool.and_eq_true] at clean
      obtain ⟨-, boolean⟩ := clean name known
      rw [capabilityAllowed]
      cases allowed : ((envelope.get "capabilities").get name).get "allowed" with
      | bool flag =>
        rw [allowed] at truthy
        exact truthy
      | _ =>
        rw [allowed] at boolean
        cases boolean

theorem truthy_of_capabilityAllowed {name : String} (allowed : capabilityAllowed envelope name = true) :
    (((envelope.get "capabilities").get name).get "allowed").truthy = true := by
  rw [capabilityAllowed] at allowed
  split at allowed
  · rename_i flag found
    rw [found]
    exact allowed
  · cases allowed

/-- An answer that denies if it is one. -/
def Denies (answer : Option Preflight) : Prop := ∀ verdict, answer = some verdict → verdict.allowed = false

theorem Denies.none : Denies none := fun _ answered => by cases answered

theorem Denies.denied (code detail : String) : Denies (some (denied code detail)) := by
  rintro _ ⟨⟩
  rfl

theorem Denies.ite {condition : Prop} [Decidable condition] {x y : Option Preflight} (left : Denies x) (right : Denies y) :
    Denies (if condition then x else y) := by
  by_cases holds : condition
  · rw [if_pos holds]
    exact left
  · rw [if_neg holds]
    exact right

theorem walkDenial_denies (tree : Tree) (relative : String) : Denies (walkDenial command tree relative) := by
  have unsafe_ : Denies (some (outside "declared path is unavailable or unsafe")) := .denied _ _
  rw [walkDenial]
  split
  · exact .none
  · exact unsafe_
  · refine .ite (.ite (.denied _ _) unsafe_) ?_
    split
    · exact .none
    · exact unsafe_

theorem declaredDenial_denies (scopes : List String) (declared : String) :
    Denies (declaredDenial command scopes roots declared) := by
  rw [declaredDenial]
  cases roots.find (parseDeclared declared).root with
  | none => exact .ite (.denied _ _) (.denied _ _)
  | some tree => exact .ite (.denied _ _) (.ite (.denied _ _) (.ite .none (walkDenial_denies tree _)))

theorem scopeDenial_denies {paths : List String} : Denies (scopeDenial envelope command paths roots) := by
  refine .ite (.denied _ _) fun verdict found => ?_
  obtain ⟨declared, -, answered⟩ := List.exists_of_findSome?_eq_some found
  exact declaredDenial_denies _ declared verdict answered

theorem capabilityDenial_denies {authorize : Bool} : Denies (capabilityDenial envelope command authorize) :=
  .ite (.denied _ _) (.ite (.denied _ _) (.ite (.denied _ _) (.ite (.denied _ _) .none)))

theorem envelopeDenial_denies : Denies (envelopeDenial envelope launch roots) := by
  refine .ite (.denied _ _) fun verdict answered => ?_
  obtain capability | ⟨-, scope⟩ := Option.or_eq_some_iff.mp answered
  · exact capabilityDenial_denies verdict capability
  · exact scopeDenial_denies verdict scope

theorem leaseDenial_denies {answer : Option Preflight} (returned : leaseDenial world task = .ok answer) :
    Denies answer := by
  rw [leaseDenial] at returned
  split at returned
  · split at returned
    · cases returned
      exact .denied _ _
    · split at returned
      · cases returned
        exact .denied _ _
      · rw [orRaise_bind_ok] at returned
        obtain ⟨instant, -, answered⟩ := returned
        rw [← pure_eq_ok.mp answered]
        exact .ite (.denied _ _) .none
  · cases returned
    exact .denied _ _

theorem boundEnvelope_denies {verdict : Preflight} (denial : boundEnvelope task = .ok (.error verdict)) :
    verdict.allowed = false := by
  rw [boundEnvelope] at denial
  split at denial
  · cases denial
    rfl
  · rw [orRaise_bind_ok] at denial
    obtain ⟨found, -, returned⟩ := denial
    split at returned
    · cases returned
      rfl
    · split at returned
      · cases returned
        rfl
      · split at returned <;> cases returned
        rfl

/-- What a bound envelope has passed. -/
structure InForce (task : Meta) : Prop where
  reference : (task.get "execution_envelope_ref").isStr = true
  object : (task.get "execution_envelope").isObj = true
  valid : errors (task.get "execution_envelope") = some []
  digest : task.get "execution_envelope_digest" = .str (canonicalDigest (task.get "execution_envelope"))
  task_ : ((task.get "execution_envelope").get "task" != task.get "id") = false
  revision : ((task.get "execution_envelope").get "envelope_revision" != task.get "execution_envelope_revision") = false
  taskRevision : ((task.get "execution_envelope").get "task_revision" != task.get "execution_envelope_task_revision") = false
  specRef : ((task.get "execution_envelope").get "spec_ref" != task.get "spec_ref") = false
  specRevision : ((task.get "execution_envelope").get "spec_revision" != task.get "spec_revision") = false

theorem boundEnvelope_eq_ok :
    boundEnvelope task = .ok (.ok envelope) ↔ envelope = task.get "execution_envelope" ∧ InForce task := by
  rw [boundEnvelope]
  by_cases missing : (!(task.get "execution_envelope_ref").isStr || !(task.get "execution_envelope").isObj) = true
  · rw [if_pos missing]
    refine iff_of_false (by simp) fun ⟨_, bound⟩ => ?_
    rw [bound.reference, bound.object] at missing
    cases missing
  · rw [if_neg missing, orRaise_bind_ok]
    simp only [Bool.or_eq_true, Bool.not_eq_true', not_or, Bool.not_eq_false] at missing
    constructor
    · rintro ⟨found, checked, returned⟩
      split at returned
      · cases returned
      · rename_i clean
        rw [Bool.not_eq_true, Bool.not_eq_false', List.isEmpty_iff] at clean
        split at returned
        · cases returned
        · rename_i digest
          split at returned
          · cases returned
          · rename_i facts
            cases returned
            simp only [Bool.or_eq_true, not_or, Bool.not_eq_true] at facts
            obtain ⟨⟨⟨⟨named, revision⟩, taskRevision⟩, specRef⟩, specRevision⟩ := facts
            refine ⟨rfl, missing.1, missing.2, clean ▸ checked, ?_, named, revision, taskRevision, specRef, specRevision⟩
            rw [bne, Bool.not_eq_true, Bool.not_eq_false', Json.beq_str] at digest
            exact digest
    · rintro ⟨rfl, bound⟩
      refine ⟨[], bound.valid, ?_⟩
      have digest : (task.get "execution_envelope_digest" !=
          .str (canonicalDigest (task.get "execution_envelope"))) = false := by
        rw [bne, Bool.not_eq_false', Json.beq_str]
        exact bound.digest
      simp only [List.isEmpty_nil, Bool.not_true, Bool.false_eq_true, if_false, digest, bound.task_, bound.revision,
        bound.taskRevision, bound.specRef, bound.specRevision, Bool.or_self]
      rfl

/-- The owner holds the task by a lease that is still open. -/
structure Claimed (world : Moment) (task : Meta) (ownerId : String) : Prop where
  owner : Coordinator.owner task = .str ownerId
  status : Coordinator.status task = .str "in_progress"
  lease : leaseDenial world task = .ok none

theorem claimPreflight_allowed :
    (∃ verdict, claimPreflight world task ownerId launch roots envelope = .ok verdict ∧ verdict.allowed = true) ↔
      Claimed world task ownerId ∧ envelopeDenial envelope launch roots = none := by
  rw [claimPreflight]
  by_cases foreign : (owner task != .str ownerId || status task != .str "in_progress") = true
  · rw [if_pos foreign]
    refine iff_of_false ?_ fun ⟨claimed, _⟩ => ?_
    · rintro ⟨_, ⟨⟩, allowed⟩
      cases allowed
    · rw [claimed.owner, claimed.status] at foreign
      simp [bne] at foreign
  · rw [if_neg foreign]
    simp only [bne, Bool.or_eq_true, not_or, Bool.not_eq_true, Bool.not_eq_false', Json.beq_str] at foreign
    constructor
    · rintro ⟨verdict, returned, allowed⟩
      obtain ⟨lapsed, lease, answered⟩ := bind_eq_ok.mp returned
      rw [pure_eq_ok] at answered
      cases lapsed with
      | some denial =>
        rw [← answered] at allowed
        have denies := leaseDenial_denies lease denial rfl
        exact absurd (allowed.symm.trans denies) (by simp)
      | none =>
        cases denied : envelopeDenial envelope launch roots with
        | none => exact ⟨⟨foreign.1, foreign.2, lease⟩, rfl⟩
        | some denial =>
          rw [denied] at answered
          rw [← answered] at allowed
          exact absurd (allowed.symm.trans (envelopeDenial_denies denial denied)) (by simp)
    · rintro ⟨claimed, free⟩
      rw [claimed.lease, ok_bind, free]
      exact ⟨_, rfl, rfl⟩

/-- Preflight allows a launch exactly when its envelope is in force, its owner holds the task and nothing is denied. -/
theorem preflight_allowed :
    (∃ verdict, preflight world task ownerId launch product state source = .ok verdict ∧ verdict.allowed = true) ↔
      (∀ reason, source ≠ some (.error reason)) ∧ InForce task ∧ Claimed world task ownerId ∧
        envelopeDenial (task.get "execution_envelope") launch ⟨product, state, source.bind Except.toOption⟩ = none := by
  by_cases unreadable : ∃ reason, source = some (.error reason)
  · obtain ⟨reason, rfl⟩ := unreadable
    refine iff_of_false ?_ fun admitted => admitted.1 reason rfl
    rintro ⟨_, ⟨⟩, allowed⟩
    cases allowed
  · rw [not_exists] at unreadable
    rw [and_iff_right unreadable, ← claimPreflight_allowed]
    constructor
    · rintro ⟨verdict, returned, allowed⟩
      unfold preflight at returned
      split at returned
      next reason => exact absurd rfl (unreadable reason)
      next =>
        obtain ⟨answer, first, second⟩ := bind_eq_ok.mp returned
        cases answer with
        | error denial =>
          rw [pure_eq_ok] at second
          rw [← second, boundEnvelope_denies first] at allowed
          cases allowed
        | ok envelope =>
          obtain ⟨rfl, whole⟩ := boundEnvelope_eq_ok.mp first
          exact ⟨whole, verdict, second, allowed⟩
    · rintro ⟨whole, verdict, returned, allowed⟩
      refine ⟨verdict, ?_, allowed⟩
      unfold preflight
      split
      next reason => exact absurd rfl (unreadable reason)
      next =>
        rw [boundEnvelope_eq_ok.mpr ⟨rfl, whole⟩]
        exact returned

/-- Preflight and the timeout check let an owner launch a command. -/
def Admitted (world : Moment) (task : Meta) (ownerId : String) (launch : Launch) (product : Tree) (state : Option Tree)
    (source : Option (Except String Tree)) : Prop :=
  (∃ verdict, preflight world task ownerId launch product state source = .ok verdict ∧ verdict.allowed = true) ∧
    0 < launch.timeout ∧ withinCap (task.get "execution_envelope") launch = true

theorem admitted_iff : Admitted world task ownerId launch product state source ↔
    (∀ reason, source ≠ some (.error reason)) ∧ InForce task ∧ Claimed world task ownerId ∧
      envelopeDenial (task.get "execution_envelope") launch ⟨product, state, source.bind Except.toOption⟩ = none ∧
      0 < launch.timeout ∧ withinCap (task.get "execution_envelope") launch = true := by
  rw [Admitted, preflight_allowed, and_assoc, and_assoc, and_assoc]

/-! A successor with fewer scopes, classes and capabilities. -/

theorem text_of_beq {a b : Json} (same : (a == b) = true) : a.text = b.text := by
  cases b with
  | str word => rw [(Json.beq_str a word).mp same]
  | _ =>
    cases a with
    | str word => cases (Json.str_beq word _).mp same
    | _ => rfl

/-- A denial that only asks for some scope stays away under more scopes. -/
theorem declaredDenial_mono {narrow wide : List String} {declared : String} (more : narrow ⊆ wide)
    (accepted : declaredDenial command narrow roots declared = none) : declaredDenial command wide roots declared = none := by
  obtain ⟨tree, found, proper, ⟨scope, listed, covered⟩, walked⟩ := declaredDenial_eq_none.mp accepted
  exact declaredDenial_eq_none.mpr ⟨tree, found, proper, ⟨scope, more listed, covered⟩, walked⟩

theorem scopesOf_subset {access : String}
    (narrowed : subset ((new.get "path_scope").get access) ((old.get "path_scope").get access) = true) :
    scopesOf new access ⊆ scopesOf old access := by
  intro scope member
  obtain ⟨item, listed, rfl⟩ := List.mem_map.mp member
  rw [subset, List.all_eq_true] at narrowed
  obtain ⟨other, kept, same⟩ := List.any_eq_true.mp (narrowed item listed)
  exact List.mem_map.mpr ⟨other, kept, text_of_beq same⟩

theorem scopeDenial_mono {paths : List String} (narrowed : ["read", "write"].any (fun access =>
      !subset ((new.get "path_scope").get access) ((old.get "path_scope").get access)) = false)
    (accepted : scopeDenial new command paths roots = none) : scopeDenial old command paths roots = none := by
  simp only [List.any_cons, List.any_nil, Bool.or_false, Bool.or_eq_false_iff, Bool.not_eq_false'] at narrowed
  obtain ⟨some_, all⟩ := scopeDenial_eq_none.mp accepted
  refine scopeDenial_eq_none.mpr ⟨some_, fun declared member => declaredDenial_mono ?_ (all declared member)⟩
  split
  · exact scopesOf_subset narrowed.2
  · exact scopesOf_subset narrowed.1

/-- What an accepted replacement has compared of an envelope and its successor. -/
structure Replaces (task : Meta) (request : Request) (new : Json) : Prop where
  object : new.isObj = true
  valid : errors new = some []
  named : new.get "task" = .str request.task
  specRef : (new.get "spec_ref" != task.get "spec_ref") = false
  taskRevision : (new.get "task_revision" != task.get "task_revision") = false
  specRevision : (new.get "spec_revision" != task.get "spec_revision") = false
  revision : (new.get "envelope_revision" != .int request.envelopeRevision) = false
  scopes : ["read", "write"].any (fun access =>
    !subset ((new.get "path_scope").get access) (((task.get "execution_envelope").get "path_scope").get access)) = false
  classes : checkClasses ((task.get "execution_envelope").get "command_classes") (new.get "command_classes").fields = .ok ()
  capabilities : (new.get "capabilities").fields.any (fun entry => (entry.2.get "allowed").truthy &&
    !((((task.get "execution_envelope").get "capabilities").get entry.1).get "allowed").truthy) = false

theorem load_eq_ok {read : Reader} {reference : String} {found : List String}
    (loaded : load read reference = .ok (some envelope, found)) (clean : found = []) (known : read reference = .ok new) :
    envelope = new ∧ new.isObj = true ∧ errors new = some [] := by
  rw [load] at loaded
  split at loaded
  · cases loaded
  · rw [known] at loaded
    dsimp only at loaded
    rw [orRaise_bind_ok] at loaded
    obtain ⟨listed, checked, returned⟩ := loaded
    rw [pure_eq_ok, Prod.mk.injEq] at returned
    obtain ⟨value, rfl⟩ := returned
    split at value
    · rename_i object
      exact ⟨(Option.some.inj value).symm, object, clean ▸ checked⟩
    · cases value

theorem replaceBound_replaces {request : Request} {read : Reader} {replacedAt note : String}
    (accepted : replaceBound task request read replacedAt = .ok (after, note)) (known : read request.envelopeRef = .ok new) :
    Replaces task request new ∧
      ∃ replacements, after = bind (task.set "execution_envelope_replacements" replacements) request new := by
  rw [replaceBound] at accepted
  simp only [bind_eq_ok, raiseIf_eq_ok, exists_unit, pure_eq_ok, Prod.mk.injEq] at accepted
  obtain ⟨-, -, ⟨loaded, found⟩, first, empty, matching, revisions, number, -, -, scopes, classes, -, -, capabilities, -, -,
    returned, -⟩ := accepted
  rw [Bool.or_eq_false_iff, Bool.not_eq_false', List.isEmpty_iff] at empty
  cases loaded with
  | none => cases empty.2
  | some envelope =>
    obtain ⟨rfl, object, valid⟩ := load_eq_ok first empty.1 known
    rw [Bool.or_eq_false_iff] at matching revisions
    rw [bne, Bool.not_eq_false', Option.getD_some, Json.beq_str] at matching
    exact ⟨⟨object, valid, matching.1, matching.2, revisions.1, revisions.2, number, scopes, classes, capabilities⟩, _,
      returned.symm⟩

/-- The task after a replacement differs in the binding alone. -/
theorem bind_frame {request : Request} {replacements : Json} {key : String} (kept : key ∉ bindingFields)
    (other : key ≠ "execution_envelope_replacements") :
    (bind (task.set "execution_envelope_replacements" replacements) request new).get key = task.get key := by
  simp only [bindingFields, List.mem_cons, List.not_mem_nil, or_false, not_or] at kept
  obtain ⟨ref, revision, taskRevision, digest, envelope⟩ := kept
  simp [bind, ref, revision, taskRevision, digest, envelope, other]

/-- The successor is in force as soon as the request names the task itself. -/
theorem inForce_iff {request : Request} {replacements : Json} (replaces : Replaces task request new) :
    InForce (bind (task.set "execution_envelope_replacements" replacements) request new) ↔
      task.get "id" = .str request.task := by
  have frame (key : String) (kept : key ∉ bindingFields) (other : key ≠ "execution_envelope_replacements") :
      (bind (task.set "execution_envelope_replacements" replacements) request new).get key = task.get key := bind_frame kept other
  have envelope : (bind (task.set "execution_envelope_replacements" replacements) request new).get "execution_envelope" = new := by
    simp [bind]
  constructor
  · intro bound
    have named := bound.task_
    rw [envelope, frame "id" (by decide) (by decide), bne, Bool.not_eq_false', replaces.named, Json.str_beq] at named
    exact named
  · intro named
    refine ⟨by simp [bind, Json.isStr], by rw [envelope]; exact replaces.object, by rw [envelope]; exact replaces.valid,
      by rw [envelope]; simp [bind], ?_, ?_, ?_, ?_, ?_⟩
    · rw [envelope, frame "id" (by decide) (by decide), replaces.named, named]
      simp [bne]
    · rw [envelope]
      simpa [bind] using replaces.revision
    · rw [envelope]
      simpa [bind] using replaces.taskRevision
    · rw [envelope, frame "spec_ref" (by decide) (by decide)]
      exact replaces.specRef
    · rw [envelope, frame "spec_revision" (by decide) (by decide)]
      exact replaces.specRevision

theorem has_of_truthy {value : Json} {key name : String} (truthy : ((value.get key).get name).truthy = true) :
    value.has key = true := by
  refine Dict.has_of_get_ne fun absent => ?_
  rw [show value.get key = .null from absent] at truthy
  cases truthy

/-- A class of the successor had a rule before, which allowed it when the new one does and was not shorter. -/
theorem checkClasses_eq_ok {classes : List (String × Json)} (checked : checkClasses old classes = .ok ()) :
    ∀ entry ∈ classes, (entry.2.get "allowed").truthy = true →
      old.has entry.1 = true ∧ ((old.get entry.1).get "allowed").truthy = true ∧
        ((old.get entry.1).has "timeout_seconds" = true → timeoutOf entry.2 ≤ timeoutOf (old.get entry.1)) := by
  induction classes with
  | nil =>
    intro entry member
    cases member
  | cons first rest ih =>
    obtain ⟨name, rule⟩ := first
    rw [checkClasses] at checked
    simp only [bind_eq_ok, raiseIf_eq_ok, exists_unit] at checked
    obtain ⟨wider, longer, later⟩ := checked
    rw [List.forall_mem_cons]
    refine ⟨fun allowed => ?_, ih later⟩
    rw [allowed, Bool.true_and, Bool.not_eq_false'] at wider
    cases known : old.has name with
    | false =>
      rw [known, if_neg Bool.false_ne_true] at wider
      cases wider
    | true =>
      rw [known, if_pos rfl] at wider longer
      refine ⟨rfl, wider, fun limited => ?_⟩
      rw [limited, Bool.true_and, decide_eq_false_iff_not, not_lt] at longer
      exact longer

/-- The limit of a class. -/
def limitOf (envelope : Json) (command : String) : Option Int :=
  (((envelope.get "command_classes").get command).get "timeout_seconds").int?

theorem classAllowed_iff : classAllowed envelope command = true ↔ command ∈ commandClasses ∧
    (((envelope.get "command_classes").get command).get "allowed").truthy = true := by
  rw [classAllowed, Bool.and_eq_true, Bool.and_eq_true, List.contains_iff_mem]
  exact ⟨fun ⟨⟨known, _⟩, truthy⟩ => ⟨known, truthy⟩, fun ⟨known, truthy⟩ => ⟨⟨known, has_of_truthy truthy⟩, truthy⟩⟩

theorem withinCap_iff : withinCap envelope launch = true ↔ ∀ cap, limitOf envelope launch.command = some cap → launch.timeout ≤ cap := by
  rw [withinCap, ← limitOf]
  cases limitOf envelope launch.command with
  | none => simp
  | some cap => simp

section narrowed
variable {request : Request} (replaces : Replaces task request new)
include replaces

theorem classAllowed_before (allowed : classAllowed new command = true) :
    classAllowed (task.get "execution_envelope") command = true := by
  obtain ⟨known, truthy⟩ := classAllowed_iff.mp allowed
  exact classAllowed_iff.mpr ⟨known, (checkClasses_eq_ok replaces.classes _ (Json.mem_fields_of_has (has_of_truthy truthy)) truthy).2.1⟩

/-- A limit that is kept is no longer than it was. -/
theorem limit_before {cap limit : Int} (allowed : classAllowed new command = true) (now : limitOf new command = some cap)
    (before : limitOf (task.get "execution_envelope") command = some limit) : cap ≤ limit := by
  obtain ⟨known, truthy⟩ := classAllowed_iff.mp allowed
  obtain ⟨-, -, shorter⟩ := checkClasses_eq_ok replaces.classes _ (Json.mem_fields_of_has (has_of_truthy truthy)) truthy
  have limited : (((task.get "execution_envelope").get "command_classes").get command).has "timeout_seconds" = true := by
    refine Dict.has_of_get_ne fun absent => ?_
    rw [limitOf, Json.get, absent] at before
    cases before
  have order := shorter limited
  rw [limitOf] at now before
  rwa [timeoutOf, timeoutOf, now, before] at order

theorem capability_before (whole : Whole (task.get "execution_envelope")) {name : String} (known : name ∈ capabilityKeys)
    (allowed : capabilityAllowed new name = true) : capabilityAllowed (task.get "execution_envelope") name = true := by
  have truthy := truthy_of_capabilityAllowed allowed
  have narrowed := List.any_eq_false.mp replaces.capabilities _ (Json.mem_fields_of_has (has_of_truthy truthy))
  rw [truthy, Bool.true_and, Bool.not_eq_true, Bool.not_eq_false'] at narrowed
  exact capabilityAllowed_of_truthy whole narrowed known

end narrowed

theorem capabilityDenial_eq_none {authorize : Bool} : capabilityDenial envelope command authorize = none ↔
    (command = "git-publication" → capabilityAllowed envelope "git_metadata" = true) ∧
      (authorize = true → command = "git-publication" ∧ capabilityAllowed envelope "network" = true) ∧
        (command = "git-publication" → capabilityAllowed envelope "network" = true → authorize = true) := by
  rw [capabilityDenial]
  by_cases publication : command = "git-publication"
  · subst publication
    cases capabilityAllowed envelope "git_metadata" <;> cases capabilityAllowed envelope "network" <;> cases authorize <;>
      simp [denied]
  · have other : (command == "git-publication") = false := beq_false_of_ne publication
    cases authorize <;> simp [publication, other, denied, bne]

theorem envelopeDenial_eq_none : envelopeDenial envelope launch roots = none ↔ classAllowed envelope launch.command = true ∧
    capabilityDenial envelope launch.command launch.authorize = none ∧
      scopeDenial envelope launch.command launch.paths roots = none := by
  rw [envelopeDenial]
  cases classAllowed envelope launch.command with
  | false => simp
  | true => simp [Option.or_eq_none_iff]

/-! A scope that a path of a changing class can lie in. -/

/-- The parent may only come last, where a changing class leaves the leaf open. -/
def Usable (scope : String) : Prop :=
  selectedRoot scope ≠ none ∨ ".." ∉ (Text.pathParts (parseDeclared scope).relative).dropLast

theorem usable_of_admitted {scopes : List String} {declared : String}
    (accepted : declaredDenial command scopes roots declared = none) : ∃ scope ∈ scopes, Usable scope := by
  obtain ⟨tree, found, -, ⟨scope, listed, covered⟩, walked⟩ := declaredDenial_eq_none.mp accepted
  refine ⟨scope, listed, ?_⟩
  by_cases unselected : selectedRoot scope = none
  · refine .inr fun up => ?_
    cases selected : (parseDeclared declared).selected with
    | false =>
      have inside := inside_of_covers found covered (.inr ⟨unselected, selected⟩)
      have early := (Text.dropLast_of_prefix inside.2).subset up
      obtain none_ | clear | ⟨-, clear⟩ := admitted_parts walked
      · rw [none_] at early
        cases early
      · exact clear.no_parent (List.dropLast_subset _ early)
      · exact clear.no_parent early
    | true =>
      -- A selector is covered by a path of the same name alone, which has a single part.
      simp only [covers, unselected, Bool.or_eq_true, beq_iff_eq, reduceCtorEq, false_or] at covered
      obtain ⟨more, grown, joint⟩ := covered_text covered
      obtain ⟨count, slashes⟩ := Text.trimmed_append scope
      have named : selectedRoot declared ≠ none := fun other => by
        obtain colon | bare := Bool.eq_false_or_eq_true (Text.contains ':' declared)
        · obtain ⟨lead, rest, split, free⟩ := split_of_contains colon
          rw [parseDeclared_split split free] at selected
          cases selected
        · rw [parseDeclared_plain bare other] at selected
          cases selected
      obtain ⟨root, chosen⟩ := Option.ne_none_iff_exists'.mp named
      have short : '/' ∉ declared.toList ∧ ':' ∉ declared.toList ∧ (Text.pathParts declared).dropLast = [] := by
        obtain ⟨rfl, -⟩ | ⟨rfl, -⟩ | ⟨rfl, -⟩ := selectedRoot_eq_some chosen <;> decide
      have same : declared = Text.trimmed scope := by
        obtain rfl | ⟨rest, rfl⟩ := joint
        · rw [List.append_nil] at grown
          exact String.toList_inj.mp grown
        · exact absurd (by rw [grown]; simp) short.1
      have bare : Text.contains ':' scope = false := by
        rw [← Bool.not_eq_true, Text.contains, List.contains_iff_mem, slashes, List.mem_append, ← same]
        rintro (member | slash)
        · exact short.2.1 member
        · exact absurd (List.eq_of_mem_replicate slash) (by decide)
      rw [parseDeclared_plain bare unselected, ← Text.pathParts_trimmed, ← same, short.2.2] at up
      cases up
  · exact .inl unselected

/-- A file system in which every name is a directory. -/
def everywhere : Tree := fun _ => some .directory

theorem isRef_facts {s : String} (ref : isRef s = true) :
    (∃ c cs, s.toList = c :: cs ∧ c ≠ '/' ∧ c ≠ '.') ∧ '\x00' ∉ s.toList := by
  rw [isRef, Text.shape, Text.characters_eq] at ref
  split at ref
  · cases ref
  · rename_i c cs spelled
    simp only [Bool.and_eq_true, List.all_eq_true] at ref
    obtain ⟨⟨⟨first, rest⟩, -⟩, -⟩ := ref
    refine ⟨⟨c, cs, spelled, ?_, ?_⟩, ?_⟩
    · rintro rfl
      exact absurd first (by decide)
    · rintro rfl
      exact absurd first (by decide)
    · rw [spelled, List.mem_cons]
      rintro (rfl | later)
      · exact absurd first (by decide)
      · exact absurd (rest _ later) (by decide)

theorem clear_everywhere {parts : List String} (some_ : parts ≠ []) (kept : ".." ∉ parts)
    (free : ∀ part ∈ parts, '\x00' ∉ part.toList) : Clear everywhere parts where
  some_part := some_
  no_parent := kept
  real lead part before := by
    refine ⟨?_, .inl rfl⟩
    rw [← Bool.not_eq_true, Text.contains, List.contains_iff_mem]
    exact free part (before.subset (by simp))

/-- Where every name is a directory, a path without the parent on its way passes for a class that may name a new leaf. -/
theorem walk_everywhere {relative : String} (changes : mutating command = true) (ref : isRef relative = true)
    (kept : ".." ∉ (Text.pathParts relative).dropLast) : walkDenial command everywhere relative = none := by
  obtain ⟨⟨c, cs, spelled, slash, dot⟩, null⟩ := isRef_facts ref
  obtain ⟨first, rest, parts, lead⟩ := Text.pathParts_cons spelled slash dot
  have free : ∀ part ∈ Text.pathParts relative, '\x00' ∉ part.toList :=
    fun part member found => null (Text.subset_of_mem_pathParts member found)
  have some_ : Text.pathParts relative ≠ [] := by simp [parts]
  by_cases up : ".." ∈ Text.pathParts relative
  · have long : 2 ≤ (Text.pathParts relative).length := by
      cases rest with
      | nil =>
        rw [parts, List.mem_singleton] at up
        rw [← up] at lead
        exact absurd (Option.some.inj lead).symm dot
      | cons second rest =>
        rw [parts]
        simp
    refine walkDenial_eq_none.mpr (.inr ⟨changes, long, ?_, ?_⟩)
    · refine clear_everywhere (fun none_ => ?_) kept fun part member => free part (List.dropLast_subset _ member)
      have shorter : (Text.pathParts relative).dropLast.length = _ := List.length_dropLast
      rw [none_, List.length_nil] at shorter
      omega
    · have dotted : (Text.pathParts relative).any (["", ".", ".."].contains ·) = true :=
        List.any_eq_true.mpr ⟨"..", up, by decide⟩
      rw [envelopeScopePath, walkParts, dotted, Bool.or_true, if_pos rfl]
      simp
  · exact walkDenial_eq_none.mpr (.inl (clear_everywhere some_ up free))

theorem isAbsolute_of_isRef {s : String} (ref : isRef s = true) : s ≠ "" ∧ Text.isAbsolute s = false := by
  obtain ⟨⟨c, cs, spelled, slash, -⟩, -⟩ := isRef_facts ref
  constructor
  · rintro rfl
    cases spelled
  · rw [← Bool.not_eq_true, Text.isAbsolute, Text.hasPrefix_iff, spelled]
    rintro ⟨rest, split⟩
    exact slash (List.cons.inj split).1.symm

/-- A usable scope can itself be declared. -/
theorem declared_everywhere {scopes : List String} {field : String} (changes : mutating command = true)
    (valid : pathValid field (.str scope) = none) (usable : Usable scope) (listed : scope ∈ scopes) :
    declaredDenial command scopes ⟨everywhere, some everywhere, some everywhere⟩ scope = none := by
  have textual (root : String) : covers root scope scope = true := by
    rw [covers, Bool.or_eq_true, Bool.or_eq_true, beq_iff_eq, beq_iff_eq, or_assoc]
    exact .inr (Text.trimmed_covers scope)
  refine declaredDenial_eq_none.mpr ⟨everywhere, ?_⟩
  rw [relativeOf]
  cases chosen : selectedRoot scope with
  | some root =>
    rw [parseDeclared_selector chosen]
    refine ⟨?_, .inl rfl, ⟨scope, listed, textual root⟩, .inl rfl⟩
    obtain ⟨-, rfl⟩ | ⟨-, rfl⟩ | ⟨-, rfl⟩ := selectedRoot_eq_some chosen <;> rfl
  | none =>
    have kept := usable.resolve_left (by simp [chosen])
    have shaped : ∃ root relative, parseDeclared scope = ⟨root, relative, false, Text.contains ':' scope⟩ ∧
        root ∈ rootNames ∧ isRef relative = true := by
      rw [pathValid] at valid
      cases colon : Text.contains ':' scope with
      | true =>
        obtain ⟨lead, rest, split, free⟩ := split_of_contains colon
        have kept : ∀ c ∈ lead.toList, decide (c ≠ ':') = true := fun c member => by
          rw [decide_eq_true_eq]
          rintro rfl
          exact free member
        have before : scope.toList.takeWhile (· ≠ ':') = lead.toList := by
          rw [split, List.takeWhile_append_of_pos kept]
          simp
        have behind : scope.toList.drop (lead.length + 1) = rest.toList := by
          rw [split, ← String.length_toList, List.drop_append]
          simp
        rw [if_pos colon] at valid
        dsimp only at valid
        rw [before, String.ofList_toList, behind, String.ofList_toList] at valid
        refine ⟨lead, rest, parseDeclared_split split free, ?_⟩
        split at valid
        · cases valid
        · rename_i proper
          simp only [Bool.or_eq_true, not_or, Bool.not_eq_true, Bool.not_eq_false'] at proper
          exact ⟨List.contains_iff_mem.mp proper.1.1.1, proper.2⟩
      | false =>
        refine ⟨"product", scope, parseDeclared_plain colon chosen, by decide, ?_⟩
        rw [if_neg (by rw [colon]; exact Bool.false_ne_true)] at valid
        split at valid
        · rename_i selector
          exact absurd selector (by
            intro member
            have named : scope = "product-root" ∨ scope = "state-root" ∨ scope = "source-root" := by
              simpa [rootSelectors] using member
            obtain rfl | rfl | rfl := named <;> cases chosen)
        · split at valid
          · cases valid
          · rename_i proper
            simp only [Bool.or_eq_true, not_or, Bool.not_eq_true, Bool.not_eq_false'] at proper
            exact proper.1
    obtain ⟨root, relative, parsed, known, ref⟩ := shaped
    rw [parsed] at kept ⊢
    refine ⟨?_, .inr (isAbsolute_of_isRef ref), ⟨scope, listed, textual root⟩, .inr (walk_everywhere changes ref kept)⟩
    have rooted : root = "product" ∨ root = "source" ∨ root = "state" := by simpa [rootNames] using known
    obtain rfl | rfl | rfl := rooted <;> rfl

/-- An envelope lets some launch of a class through, as far as the claim of the owner allows. -/
structure Runs (envelope : Json) (command : String) : Prop where
  allowed : classAllowed envelope command = true
  usable : mutating command = true → ∃ scope ∈ scopesOf envelope "write", Usable scope
  metadata : command = "git-publication" → capabilityAllowed envelope "git_metadata" = true

theorem runs_of_admitted (free : envelopeDenial envelope launch roots = none) : Runs envelope launch.command := by
  obtain ⟨allowed, capable, scopes⟩ := envelopeDenial_eq_none.mp free
  refine ⟨allowed, fun changes => ?_, (capabilityDenial_eq_none.mp capable).1⟩
  obtain ⟨some_, all⟩ := scopeDenial_eq_none.mp scopes
  obtain ⟨declared, member⟩ := List.exists_mem_of_ne_nil _ (some_ changes)
  have accepted := all declared member
  rw [if_pos changes] at accepted
  exact usable_of_admitted accepted

/-- A class that runs has paths under which only its capabilities are left to be decided. -/
theorem admitted_of_runs (whole : Whole envelope) (runs : Runs envelope command) : ∃ paths, ∀ authorize timeout,
    (authorize = true → command = "git-publication" ∧ capabilityAllowed envelope "network" = true) →
    (command = "git-publication" → capabilityAllowed envelope "network" = true → authorize = true) →
    envelopeDenial envelope ⟨command, paths, authorize, timeout⟩ ⟨everywhere, some everywhere, some everywhere⟩ = none := by
  by_cases changes : mutating command = true
  · obtain ⟨scope, listed, usable⟩ := runs.usable changes
    refine ⟨[scope], fun authorize timeout right needed => envelopeDenial_eq_none.mpr
      ⟨runs.allowed, capabilityDenial_eq_none.mpr ⟨runs.metadata, right, needed⟩, scopeDenial_eq_none.mpr ⟨by simp, ?_⟩⟩⟩
    rw [List.forall_mem_singleton, if_pos changes]
    obtain ⟨item, member, named⟩ := List.mem_map.mp listed
    have valid := whole.writable item member
    cases item with
    | str word =>
      obtain rfl : word = scope := named
      exact declared_everywhere changes valid usable listed
    | _ => cases valid
  · exact ⟨[], fun authorize timeout right needed => envelopeDenial_eq_none.mpr
      ⟨runs.allowed, capabilityDenial_eq_none.mpr ⟨runs.metadata, right, needed⟩,
        scopeDenial_eq_none.mpr ⟨fun other => absurd other changes, by simp⟩⟩⟩

/-- The limits of a valid envelope are positive. -/
theorem limit_pos (whole : Whole envelope) {cap : Int} (limited : limitOf envelope command = some cap) : 0 < cap := by
  have listed : (envelope.get "command_classes").has command = true := by
    refine Dict.has_of_get_ne fun absent => ?_
    rw [limitOf, show (envelope.get "command_classes").get command = .null from absent] at limited
    cases limited
  have valid := whole.rules _ (Json.mem_fields_of_has listed)
  simp only [validCommandRule, Bool.and_eq_true, Bool.or_eq_true, Bool.not_eq_true'] at valid
  obtain unlimited | limit := valid.2
  · have absent : ((envelope.get "command_classes").get command).get "timeout_seconds" = .null := Dict.get_of_not_has unlimited
    rw [limitOf, absent] at limited
    cases limited
  · rw [limitOf] at limited
    cases written : ((envelope.get "command_classes").get command).get "timeout_seconds" with
    | int number =>
      rw [written] at limit limited
      obtain rfl : number = cap := Option.some.inj limited
      simp only [Json.exactInt?, Option.any_some, Bool.and_eq_true, decide_eq_true_eq] at limit
      omega
    | _ =>
      rw [written] at limit
      cases limit

/-- The old envelope is the one in force, a successor keeps its limits, and its network where it still publishes. -/
structure Keeps (task : Meta) (new : Json) : Prop where
  inForce : ∀ command, Runs new command → InForce task
  capped : ∀ command, Runs new command → (limitOf (task.get "execution_envelope") command).isSome = true →
    (limitOf new command).isSome = true
  online : Runs new "git-publication" → capabilityAllowed (task.get "execution_envelope") "network" = true →
    capabilityAllowed new "network" = true

theorem claimed_bind {request : Request} {replacements : Json} :
    Claimed world (bind (task.set "execution_envelope_replacements" replacements) request new) ownerId ↔
      Claimed world task ownerId := by
  have frame (key : String) (kept : key ∉ bindingFields) (other : key ≠ "execution_envelope_replacements") :
      (bind (task.set "execution_envelope_replacements" replacements) request new).get key = task.get key := bind_frame kept other
  have same : ∀ {other : Meta}, other.get "owner" = task.get "owner" → other.get "status" = task.get "status" →
      other.get "claim_expires" = task.get "claim_expires" → (Claimed world other ownerId ↔ Claimed world task ownerId) := by
    intro other owned stated expires
    have lease : leaseDenial world other = leaseDenial world task := by
      rw [leaseDenial, leaseDenial, claimExpires, claimExpires, expires]
    constructor
    · rintro ⟨owner, status, open_⟩
      exact ⟨owned.symm.trans owner, stated.symm.trans status, lease.symm.trans open_⟩
    · rintro ⟨owner, status, open_⟩
      exact ⟨owned.trans owner, stated.trans status, lease.trans open_⟩
  exact same (frame "owner" (by decide) (by decide)) (frame "status" (by decide) (by decide))
    (frame "claim_expires" (by decide) (by decide))

/-- What keeps its limits admits no launch that was not admitted before. -/
theorem admitted_before {request : Request} (replaces : Replaces task request new) (keeps : Keeps task new)
    (claimed : Claimed world task ownerId) (genuine : ∀ reason, source ≠ some (.error reason))
    (free : envelopeDenial new launch ⟨product, state, source.bind Except.toOption⟩ = none)
    (positive_ : 0 < launch.timeout) (fits : withinCap new launch = true) :
    Admitted world task ownerId launch product state source := by
  have runs := runs_of_admitted free
  have bound := keeps.inForce _ runs
  have whole := whole_of_errors bound.valid
  obtain ⟨allowed, capable, scopes⟩ := envelopeDenial_eq_none.mp free
  obtain ⟨metadata, right, needed⟩ := capabilityDenial_eq_none.mp capable
  refine admitted_iff.mpr ⟨genuine, bound, claimed, envelopeDenial_eq_none.mpr ⟨classAllowed_before replaces allowed, ?_,
    scopeDenial_mono replaces.scopes scopes⟩, positive_, ?_⟩
  · refine capabilityDenial_eq_none.mpr ⟨fun publication => ?_, fun authorized => ?_, fun publication network => ?_⟩
    · exact capability_before replaces whole (by decide) (metadata publication)
    · exact ⟨(right authorized).1, capability_before replaces whole (by decide) (right authorized).2⟩
    · exact needed publication (keeps.online (publication ▸ runs) network)
  · rw [withinCap_iff] at fits ⊢
    intro limit before
    obtain ⟨cap, now⟩ := Option.isSome_iff_exists.mp (keeps.capped _ runs (Option.isSome_iff_exists.mpr ⟨limit, before⟩))
    have shorter : (cap : Rat) ≤ limit := by exact_mod_cast limit_before replaces allowed now before
    exact Rat.le_trans (fits cap now) shorter

/-- An accepted replacement admits no new launch exactly if it keeps the limits of what it replaces, as far as the task
is claimed and its own. -/
theorem replacement_narrows_iff {request : Request} {read : Reader} {replacedAt note : String}
    (accepted : replaceBound task request read replacedAt = .ok (after, note)) (loaded : read request.envelopeRef = .ok new) :
    (∀ world ownerId launch product state source, Admitted world after ownerId launch product state source →
      Admitted world task ownerId launch product state source) ↔
      (task.get "id" = .str request.task → (∃ world ownerId, Claimed world task ownerId) → Keeps task new) := by
  obtain ⟨replaces, replacements, rfl⟩ := replaceBound_replaces accepted loaded
  have envelope : (bind (task.set "execution_envelope_replacements" replacements) request new).get "execution_envelope" = new := by
    simp [bind]
  constructor
  · rintro narrows named ⟨world, ownerId, claimed⟩
    have whole := whole_of_errors replaces.valid
    -- A class that runs under the successor runs under its predecessor, with the same authorization and timeout.
    have before {command : String} (runs : Runs new command) : ∃ paths, ∀ authorize (timeout : Rat),
        (authorize = true → command = "git-publication" ∧ capabilityAllowed new "network" = true) →
        (command = "git-publication" → capabilityAllowed new "network" = true → authorize = true) →
        0 < timeout → (∀ cap : Int, limitOf new command = some cap → timeout ≤ cap) →
        Admitted world task ownerId ⟨command, paths, authorize, timeout⟩ everywhere (some everywhere)
          (some (.ok everywhere)) := by
      obtain ⟨paths, admits⟩ := admitted_of_runs whole runs
      refine ⟨paths, fun authorize timeout right needed positive_ fits => narrows _ _ _ _ _ _ (admitted_iff.mpr
        ⟨by simp, (inForce_iff replaces).mpr named, claimed_bind.mpr claimed, ?_, positive_, ?_⟩)⟩
      · rw [envelope]
        exact admits authorize timeout right needed
      · rw [envelope]
        exact withinCap_iff.mpr fits
    have lawful (command : String) :
        ((decide (command = "git-publication") && capabilityAllowed new "network") = true →
          command = "git-publication" ∧ capabilityAllowed new "network" = true) ∧
        (command = "git-publication" → capabilityAllowed new "network" = true →
          (decide (command = "git-publication") && capabilityAllowed new "network") = true) := by
      rw [Bool.and_eq_true, decide_eq_true_eq]
      exact ⟨id, And.intro⟩
    have fitting {command : String} : ∃ timeout : Rat, 0 < timeout ∧ ∀ cap : Int, limitOf new command = some cap → timeout ≤ cap := by
      cases limited : limitOf new command with
      | none => exact ⟨1, by decide, by simp⟩
      | some limit => exact ⟨limit, by exact_mod_cast limit_pos whole limited, by simp⟩
    refine ⟨fun command runs => ?_, fun command runs limited => ?_, fun runs network => ?_⟩
    · obtain ⟨paths, admits⟩ := before runs
      obtain ⟨timeout, positive_, fits⟩ := @fitting command
      exact (admitted_iff.mp (admits _ timeout (lawful command).1 (lawful command).2 positive_ fits)).2.1
    · obtain ⟨limit, found⟩ := Option.isSome_iff_exists.mp limited
      by_contra unlimited
      rw [Option.not_isSome_iff_eq_none] at unlimited
      obtain ⟨paths, admits⟩ := before runs
      have positive_ : (0 : Rat) < (max limit 0 + 1 : Int) := by exact_mod_cast Int.lt_add_one_of_le (le_max_right limit 0)
      have admitted := admits _ (max limit 0 + 1 : Int) (lawful command).1 (lawful command).2 positive_ (by simp [unlimited])
      have fits : ((max limit 0 + 1 : Int) : Rat) ≤ limit := withinCap_iff.mp (admitted_iff.mp admitted).2.2.2.2.2 limit found
      have shorter : max limit 0 + 1 ≤ limit := by exact_mod_cast fits
      omega
    · by_contra offline
      obtain ⟨paths, admits⟩ := before runs
      obtain ⟨timeout, positive_, fits⟩ := @fitting "git-publication"
      have admitted := admits false timeout (by simp) (fun _ allowed => absurd allowed offline) positive_ fits
      have capable := (envelopeDenial_eq_none.mp (admitted_iff.mp admitted).2.2.2.1).2.1
      cases (capabilityDenial_eq_none.mp capable).2.2 rfl network
  · intro keeps world ownerId launch product state source admitted
    obtain ⟨genuine, bound, claimed, free, positive_, fits⟩ := admitted_iff.mp admitted
    rw [envelope] at free fits
    have open_ := claimed_bind.mp claimed
    exact admitted_before replaces (keeps ((inForce_iff replaces).mp bound) ⟨world, ownerId, open_⟩) open_ genuine free
      positive_ fits

/-- The sample envelope with the rule of its only class. -/
def ruledEnvelope (number : Int) (rule : Dict) : Json :=
  .obj ((TaskValidation.sampleEnvelope number 4).fields.set "command_classes"
    (.obj [("read", .obj (("allowed", .bool true) :: rule))]))

/-- The sample task, claimed and bound to an envelope. -/
def boundSample (envelope : Json) : Meta :=
  bind (TaskValidation.claimedSample ++ [("spec_ref", .str "specs/one.json"), ("spec_revision", .int 1)])
    ⟨"AR-0001", "envelopes/one.json", 1⟩ envelope

/-- The sample task under a limit of a minute. -/
def limitedTask : Meta := boundSample (ruledEnvelope 1 [("timeout_seconds", .int 60)])

def successorRequest : Request := ⟨"AR-0001", "envelopes/two.json", 2⟩

theorem limitOf_ruled (number : Int) (rule : Dict) (command : String) : limitOf (ruledEnvelope number rule) command =
    if command = "read" then ((Json.obj (("allowed", .bool true) :: rule)).get "timeout_seconds").int? else none := by
  have rules : (ruledEnvelope number rule).get "command_classes" = .obj [("read", .obj (("allowed", .bool true) :: rule))] := rfl
  rw [limitOf, rules]
  by_cases named : command = "read"
  · subst named
    rfl
  · simp [Dict.get, Dict.find, named, Ne.symm named, Json.get, Json.fields, Json.int?]

theorem boundSample_inForce (valid : errors envelope = some []) (object : envelope.isObj = true)
    (named : envelope.get "task" = .str "AR-0001") (revision : envelope.get "envelope_revision" = .int 1)
    (taskRevision : envelope.get "task_revision" = .int 4) (specRef : envelope.get "spec_ref" = .str "specs/one.json")
    (specRevision : envelope.get "spec_revision" = .int 1) : InForce (boundSample envelope) := by
  have embedded : (boundSample envelope).get "execution_envelope" = envelope := rfl
  exact
    { reference := rfl
      object := object
      valid := valid
      digest := rfl
      task_ := by rw [embedded, named]; exact (by decide : (Json.str "AR-0001" != .str "AR-0001") = false)
      revision := by rw [embedded, revision]; exact (by decide : (Json.int 1 != .int 1) = false)
      taskRevision := by rw [embedded, taskRevision]; exact (by decide : (Json.int 4 != .int 4) = false)
      specRef := by rw [embedded, specRef]; exact (by decide : (Json.str "specs/one.json" != .str "specs/one.json") = false)
      specRevision := by rw [embedded, specRevision]; exact (by decide : (Json.int 1 != .int 1) = false) }

theorem boundSample_claimed (envelope : Json) : Claimed TaskValidation.sampleWorld (boundSample envelope) "worker" where
  owner := rfl
  status := rfl
  lease := by
    have expires : claimExpires (boundSample envelope) = claimExpires TaskValidation.claimedSample := rfl
    have open_ : (leaseDenial TaskValidation.sampleWorld TaskValidation.claimedSample).toOption.any Option.isNone = true := by
      decide +kernel
    have same : leaseDenial TaskValidation.sampleWorld (boundSample envelope) =
        leaseDenial TaskValidation.sampleWorld TaskValidation.claimedSample := by
      rw [leaseDenial, leaseDenial, expires]
    rw [same]
    cases answer : leaseDenial TaskValidation.sampleWorld TaskValidation.claimedSample with
    | error raised =>
      rw [answer] at open_
      cases open_
    | ok denial =>
      rw [answer] at open_
      exact congrArg Except.ok (Option.isNone_iff_eq_none.mp open_)

theorem limitedTask_inForce : InForce limitedTask :=
  boundSample_inForce (by decide +kernel) rfl rfl rfl rfl rfl rfl

/-- Successors with half of the limit and with none are accepted. -/
theorem successors_accepted :
    allowed (replaceBound limitedTask successorRequest (fun _ => .ok (ruledEnvelope 2 [("timeout_seconds", .int 30)]))
      "2026-01-03T00:00:00+00:00") = true ∧
    allowed (replaceBound limitedTask successorRequest (fun _ => .ok (ruledEnvelope 2 [])) "2026-01-03T00:00:00+00:00") = true := by
  decide +kernel

theorem shorter_narrows : ∃ after note, replaceBound limitedTask successorRequest
    (fun _ => .ok (ruledEnvelope 2 [("timeout_seconds", .int 30)])) "2026-01-03T00:00:00+00:00" = .ok (after, note) ∧
    ∀ world ownerId launch product state source, Admitted world after ownerId launch product state source →
      Admitted world limitedTask ownerId launch product state source := by
  obtain ⟨⟨after, note⟩, accepted⟩ := allowed_iff.mp successors_accepted.1
  refine ⟨after, note, accepted, (replacement_narrows_iff accepted rfl).mpr fun _ _ => ?_⟩
  have embedded : limitedTask.get "execution_envelope" = ruledEnvelope 1 [("timeout_seconds", .int 60)] := rfl
  refine ⟨fun _ _ => limitedTask_inForce, fun command _ limited => ?_, fun _ network => ?_⟩
  · rw [embedded, limitOf_ruled] at limited
    rw [limitOf_ruled]
    split at limited
    · rw [if_pos ‹_›]
      rfl
    · cases limited
  · rw [embedded] at network
    exact absurd network (by decide +kernel)

/-- A read that runs for an hour is admitted after the limit of a minute has been dropped. -/
theorem limit_dropped : ∃ after note, replaceBound limitedTask successorRequest
    (fun _ => .ok (ruledEnvelope 2 [])) "2026-01-03T00:00:00+00:00" = .ok (after, note) ∧
    Admitted TaskValidation.sampleWorld after "worker" ⟨"read", [], false, 3600⟩ sampleProduct none none ∧
    ¬ Admitted TaskValidation.sampleWorld limitedTask "worker" ⟨"read", [], false, 3600⟩ sampleProduct none none := by
  obtain ⟨⟨after, note⟩, accepted⟩ := allowed_iff.mp successors_accepted.2
  refine ⟨after, note, accepted, ?_, fun admitted => ?_⟩
  · obtain ⟨replaces, replacements, rfl⟩ := replaceBound_replaces accepted rfl
    have embedded : (bind (limitedTask.set "execution_envelope_replacements" replacements) successorRequest
        (ruledEnvelope 2 [])).get "execution_envelope" = ruledEnvelope 2 [] := by simp [bind]
    refine admitted_iff.mpr ⟨by simp, (inForce_iff replaces).mpr rfl, claimed_bind.mpr (boundSample_claimed _), ?_, by decide, ?_⟩
    · rw [embedded]
      exact Option.isNone_iff_eq_none.mp (by decide +kernel)
    · rw [embedded, withinCap_iff, limitOf_ruled]
      rintro cap ⟨⟩
  · have fits := withinCap_iff.mp (admitted_iff.mp admitted).2.2.2.2.2
    exact absurd (fits 60 (limitOf_ruled 1 [("timeout_seconds", .int 60)] "read")) (by decide +kernel)

end Coordinator.ExecutionEnvelope
