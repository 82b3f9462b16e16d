import Coordinator.Effects
import Coordinator.Revision

/-! The freshness of material assumptions at the two gates that ask for it. Acceptance looks
without the task set, completion with it. What acceptance finds fresh is fresh for the completion
that follows; only a material dependency is fresh for completion and never for acceptance. -/

namespace Coordinator.AssumptionRevalidation
open Kit Dict TaskValidation

variable {files : Files} {world later : Moment} {task next : Meta} {tasks others : List Meta}

/-- Two moments read the same head of every worktree and the same digest of every observed file. -/
structure SameReadings (world later : Moment) : Prop where
  heads : later.worktreeHead = world.worktreeHead
  digests : later.observationDigest = world.observationDigest

/-- A material record in force about another task. -/
def isLiveDependency (record : Json) : Bool := isLive record && (record.get "kind").text == "dependency"

/-- No material assumption in force is about another task. -/
def Independent (task : Meta) : Prop :=
  ∀ history, records task = .ok history → ∀ entry ∈ active history, isLiveDependency entry.2 = false

/-- Without tasks there is no dependency to look at. -/
theorem dependency_nil (name : String) (found : Json) : dependency [] name ≠ .ok found := by
  simp [dependency, bind_eq_ok]

theorem currentBinding_nil {record found : Json} (looked : currentBinding world task [] record = .ok found) :
    (record.get "kind").text ≠ "dependency" := by
  intro named
  simp only [currentBinding, named, binding] at looked
  exact dependency_nil _ _ looked

section readings

variable (same : SameReadings world later) (key : next.get "worktree_key" = task.get "worktree_key")
include same key

/-- Apart from dependencies, the present binding of a record does not depend on the tasks. -/
theorem currentBinding_same {record : Json} (other : (record.get "kind").text ≠ "dependency") :
    currentBinding later next others record = currentBinding world task tasks record := by
  unfold currentBinding binding
  rw [key, same.heads, same.digests]
  split
  · rfl
  · next named => exact absurd named other
  · rfl
  · rfl

theorem firstStale_same {entries : Dict} (apart : ∀ entry ∈ entries, isLiveDependency entry.2 = false) :
    firstStale later next others entries = firstStale world task tasks entries := by
  induction entries with
  | nil => rfl
  | cons entry rest ih =>
    obtain ⟨assumptionId, record⟩ := entry
    rw [List.forall_mem_cons] at apart
    rw [firstStale, firstStale, ih apart.2]
    cases live : isLive record with
    | false => rfl
    | true =>
      have other : (record.get "kind").text ≠ "dependency" := by
        simpa [isLiveDependency, live] using apart.1
      rw [currentBinding_same same key other]

end readings

/-- A live dependency is never found fresh without the tasks. -/
theorem firstStale_nil {entries : Dict} (fresh : firstStale world task [] entries = .ok none) :
    ∀ entry ∈ entries, isLiveDependency entry.2 = false := by
  induction entries with
  | nil => simp
  | cons entry rest ih =>
    obtain ⟨assumptionId, record⟩ := entry
    rw [List.forall_mem_cons]
    rw [firstStale] at fresh
    cases live : isLive record with
    | false => exact ⟨by simp [isLiveDependency, live], ih (by simpa [live] using fresh)⟩
    | true =>
      simp only [live, Bool.not_true, Bool.false_eq_true, ↓reduceIte, bind_eq_ok] at fresh
      obtain ⟨current, looked, fresh⟩ := fresh
      have other := currentBinding_nil looked
      split at fresh
      · simp at fresh
      · exact ⟨by simp [isLiveDependency, other], ih fresh⟩

theorem admissionError_eq_none : admissionError world task tasks = none ↔
    ∃ history, records task = .ok history ∧ firstStale world task tasks (active history) = .ok none := by
  unfold admissionError
  cases found : (do let history ← records task; firstStale world task tasks (active history)) with
  | error fault =>
    simp only [reduceCtorEq, false_iff, not_exists, not_and]
    intro history valid fresh
    rw [valid, ok_bind, fresh] at found
    cases found
  | ok stale =>
    obtain ⟨history, valid, looked⟩ := bind_eq_ok.mp found
    simp [valid, looked]

/-- The check passes when nothing needs it, or with settings and nothing stale. -/
theorem freshnessError_eq_none : freshnessError files world task tasks = .ok none ↔
    ∃ needed, needsAdmission task = .ok needed ∧ (needed = true →
      (∃ settings, files.config = some settings ∧ settings.has "projects_root" = true) ∧
        admissionError world task tasks = none) := by
  simp only [freshnessError, bind_eq_ok]
  refine exists_congr fun needed => and_congr_right fun _ => ?_
  cases needed with
  | false => simp
  | true =>
    simp only [↓reduceIte, orRaise_bind_ok, raiseIf_bind_ok, pure_eq_ok, Bool.not_eq_false', forall_const]
    constructor
    · rintro ⟨settings, known, root, clean⟩
      exact ⟨⟨settings, known, root⟩, clean⟩
    · rintro ⟨⟨settings, known, root⟩, clean⟩
      exact ⟨settings, known, root, clean⟩

/-- Without needed admission, no record in force is a live dependency. -/
theorem independent_of_needless (needless : needsAdmission task = .ok false) : Independent task := by
  intro history valid entry member
  simp only [needsAdmission, valid, ok_bind, pure_eq_ok, List.any_eq_false] at needless
  simp [isLiveDependency, needless entry member]

/-- Only a task without live dependencies is fresh where the tasks are not shown. -/
theorem independent_of_fresh (fresh : freshnessError files world task [] = .ok none) : Independent task := by
  obtain ⟨needed, known, checked⟩ := freshnessError_eq_none.mp fresh
  cases needed with
  | false => exact independent_of_needless known
  | true =>
    obtain ⟨history, valid, looked⟩ := admissionError_eq_none.mp (checked rfl).2
    intro other same
    obtain rfl : history = other := Except.ok.inj (valid.symm.trans same)
    exact firstStale_nil looked

/-- Freshness of a task without live dependencies depends on the readings, its history and its
worktree alone. -/
theorem freshness_same (same : SameReadings world later)
    (frame : SameOn ["assumption_revalidation", "worktree_key"] next task) (apart : Independent task)
    (fresh : freshnessError files world task tasks = .ok none) : freshnessError files later next others = .ok none := by
  have histories : records next = records task := assumptionRecords_same (frame.mono (by simp))
  have needs : needsAdmission next = needsAdmission task := by rw [needsAdmission, needsAdmission, histories]
  obtain ⟨needed, known, checked⟩ := freshnessError_eq_none.mp fresh
  refine freshnessError_eq_none.mpr ⟨needed, needs.trans known, fun wanted => ⟨(checked wanted).1, ?_⟩⟩
  obtain ⟨history, valid, looked⟩ := admissionError_eq_none.mp (checked wanted).2
  refine admissionError_eq_none.mpr ⟨history, histories.trans valid, ?_⟩
  rw [firstStale_same same (frame.get (by simp)) (apart history valid)]
  exact looked

end Coordinator.AssumptionRevalidation

namespace Coordinator.Authority
open Kit Dict TaskValidation Transitions AssumptionRevalidation

variable {ctx next : Context} {task : Meta}

/-- The freshness rule of acceptance, whose handler hands no tasks on. -/
def acceptRule (ctx : Context) (task : Meta) : Outcome (Option String) := freshnessError ctx.files ctx.world task []

/-- The freshness rule of a release to done. -/
def releaseRule (ctx : Context) (task : Meta) : Outcome (Option String) :=
  freshnessError ctx.files ctx.world task ctx.metas

/-- A context over the same files with the same readings. -/
structure Following (ctx next : Context) : Prop where
  files : next.files = ctx.files
  readings : SameReadings ctx.world next.world

theorem release_of_accept {after : Meta} (fresh : acceptRule ctx task = .ok none) (following : Following ctx next)
    (frame : SameOn ["assumption_revalidation", "worktree_key"] after task) : releaseRule next after = .ok none := by
  rw [releaseRule, following.files]
  exact freshness_same following.readings frame (independent_of_fresh fresh) fresh

/-- Acceptance finds fresh what completion finds fresh of a task without live dependencies. -/
theorem acceptRule_iff : acceptRule ctx task = .ok none ↔ releaseRule ctx task = .ok none ∧ Independent task := by
  constructor
  · intro fresh
    exact ⟨release_of_accept fresh ⟨rfl, ⟨rfl, rfl⟩⟩ fun _ _ => rfl, independent_of_fresh fresh⟩
  · rintro ⟨fresh, apart⟩
    exact freshness_same ⟨rfl, rfl⟩ (fun _ _ => rfl) apart fresh

theorem applyAccept_fresh {accepted : Meta} {request : PredicateLedger.Request} {note : String}
    (applied : applyAccept ctx task request = .ok (accepted, note)) : acceptRule ctx task = .ok none := by
  simp only [applyAccept, PredicateLedger.applyAcceptance, bind_eq_ok, exists_unit] at applied
  obtain ⟨-, -, -, -, stale, fresh, applied⟩ := applied
  cases stale with
  | some error => simp at applied
  | none => exact fresh

/-- What acceptance finds fresh, the release to done that follows finds fresh, on the task as it is
and as an accepted acceptance leaves it; what the release finds stale, no acceptance takes. -/
theorem accept_agrees_with_release (ctx : Context) (task : Meta) :
    (acceptRule ctx task = .ok none → ∀ next, Following ctx next → releaseRule next task = .ok none ∧
      ∀ request accepted note at_, applyAccept ctx task request = .ok (accepted, note) →
        releaseRule next (advanced accepted at_) = .ok none) ∧
    (releaseRule ctx task ≠ .ok none → acceptRule ctx task ≠ .ok none ∧
      ∀ request, allowed (applyAccept ctx task request) = false) := by
  refine ⟨fun fresh next following => ⟨release_of_accept fresh following fun _ _ => rfl, ?_⟩, fun stale => ?_⟩
  · intro request accepted note at_ applied
    have frame : Within (acceptFields ++ revisionFields) task (advanced accepted at_) :=
      ((applyAccept_within ctx task request (accepted, note) applied).mono (by simp +contextual)).trans
        ((advanced_within accepted at_).mono (by simp +contextual))
    exact release_of_accept fresh following (frame.sameOn (by decide))
  · have refused : acceptRule ctx task ≠ .ok none := fun fresh => stale (acceptRule_iff.mp fresh).1
    refine ⟨refused, fun request => ?_⟩
    rw [Bool.eq_false_iff]
    intro taken
    obtain ⟨⟨accepted, note⟩, applied⟩ := allowed_iff.mp taken
    exact refused (applyAccept_fresh applied)

/-- A material assumption about one observed file. -/
def observedRecord : Json :=
  match AssumptionRevalidation.record "declare" "plan" "observation" true
    (.obj [("ref", .str "notes/plan.md"), ("digest", .str sampleDigest)]) 4 "" "" with
  | .ok made => made
  | .error _ => .null

def assumingSample : Meta := claimedSample ++ [("assumption_revalidation", .arr [observedRecord])]

/-- The sample moment with a readable observed file. -/
def observingWorld : Moment := { sampleWorld with observationDigest := fun _ => .ok sampleDigest }

def assumingContext : Context where
  files := { sampleFiles with config := some [("projects_root", .str "projects")] }
  world := observingWorld
  name := "AR-0001"
  tasks := [⟨"AR-0001.md", assumingSample, "Body.\n"⟩]
  sessions := []
  checkpoints := []

def acceptSample : PredicateLedger.Request where
  task := "AR-0001"
  owner := "worker"
  expectedRevision := 4
  note := "Accepted."
  evidenceClass := "mechanical"
  evidenceRef := "evidence/one.json"
  evidenceDigest := sampleDigest
  predicate := none
  candidateRef := none
  candidateDigest := none
  reopen := false

/-- The owner of a task with a fresh material assumption accepts it, and the release that follows
finds the assumption fresh; with the file changed, it finds it stale and acceptance is refused. -/
theorem acceptSample_agrees :
    (∃ accepted note, applyAccept assumingContext assumingSample acceptSample = .ok (accepted, note) ∧
      releaseRule assumingContext (advanced accepted "2026-01-03T00:00:00+00:00") = .ok none) ∧
    allowed (applyAccept { assumingContext with world := sampleWorld } assumingSample acceptSample) = false := by
  have taken : allowed (applyAccept assumingContext assumingSample acceptSample) = true := by decide +kernel
  obtain ⟨⟨accepted, note⟩, applied⟩ := allowed_iff.mp taken
  have following : Following assumingContext assumingContext := ⟨rfl, ⟨rfl, rfl⟩⟩
  have fresh := (accept_agrees_with_release assumingContext assumingSample).1 (applyAccept_fresh applied) _ following
  have stale : releaseRule { assumingContext with world := sampleWorld } assumingSample ≠ .ok none := by
    decide +kernel
  exact ⟨⟨accepted, note, applied, fresh.2 _ _ _ _ applied⟩,
    ((accept_agrees_with_release _ _).2 stale).2 acceptSample⟩

end Coordinator.Authority
