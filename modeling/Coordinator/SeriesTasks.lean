import Coordinator.IssueSeries
import Coordinator.TaskUnion

/-! The tasks that an issue series consists of: each member becomes a planned task, and the finalizer the
parent of the others. -/

namespace Coordinator.IssueSeries
open Kit TaskGraph TaskValidation TaskUnion

/-- What links a task to its series. -/
def linkage (reference digest id : String) : Json :=
  .obj [("manifest_ref", .str reference), ("manifest_digest", .str digest), ("member_id", .str id)]

/-- The members below the finalizer. -/
def childIds (manifest : IssueSeriesManifest) : List String := (manifest.members.map Member.id).filter (· != manifest.finalizer)

section
variable (manifest : IssueSeriesManifest) (reference digest createdAt : String)

def seriesFields (member : Member) : Meta := [
  ("schema_version", .int 1),
  ("id", .str member.id),
  ("title", .str member.shortTitle),
  ("short_title", .str member.shortTitle),
  ("status", .str "planned"),
  ("priority", .str "P1"),
  ("summary", .str member.scope),
  ("next_action", .str "Implement the bounded scope and record local acceptance evidence."),
  ("task_revision", .int 1),
  ("updated_at", .str createdAt),
  ("owner", .str ""),
  ("claim_expires", .str ""),
  ("checkpoint_commit", .str ""),
  ("depends_on", .arr (member.dependencies.map .str)),
  ("parent_task_ref", .str (if member.id = manifest.finalizer then "" else manifest.finalizer)),
  ("children", .arr ((if member.id = manifest.finalizer then childIds manifest else []).map .str)),
  ("issue_series", linkage reference digest member.id)]

def seriesBody (member : Member) : String :=
  Text.joined "\n\n" ["Issue-series member created from a locally validated manifest.", "Scope: " ++ member.scope,
    "Acceptance: " ++ member.acceptance, "Ownership hint: " ++ member.ownership] ++ "\n"

def seriesTask (member : Member) : Task :=
  ⟨member.id ++ ".md", seriesFields manifest reference digest createdAt member, seriesBody member⟩

/-- Every planned task, in the order of the members. -/
def seriesTasks : List Task := manifest.members.map (seriesTask manifest reference digest createdAt)

end

section
variable {manifest : IssueSeriesManifest} {reference digest createdAt : String} {member : Member}

@[simp] theorem idOf_seriesTask : idOf (seriesTask manifest reference digest createdAt member) = member.id := rfl

@[simp] theorem path_seriesTask : (seriesTask manifest reference digest createdAt member).path = member.id ++ ".md" := rfl

theorem dependenciesOf_seriesTask :
    dependenciesOf (seriesTask manifest reference digest createdAt member).fields = .arr (member.dependencies.map .str) := rfl

theorem parentOf_seriesTask : parentOf (seriesTask manifest reference digest createdAt member).fields =
    .str (if member.id = manifest.finalizer then "" else manifest.finalizer) := rfl

theorem childrenField_seriesTask : childrenField (seriesTask manifest reference digest createdAt member).fields =
    .arr ((if member.id = manifest.finalizer then childIds manifest else []).map .str) := rfl

theorem isActive_seriesTask : isActive (seriesTask manifest reference digest createdAt member).fields = false := rfl

theorem supersededBy_seriesTask :
    ((seriesTask manifest reference digest createdAt member).fields.get "superseded_by").isNull = true := rfl

theorem linkage_seriesTask : (seriesTask manifest reference digest createdAt member).fields.get "issue_series" =
    linkage reference digest member.id := rfl

theorem mem_seriesTasks {task : Task} : task ∈ seriesTasks manifest reference digest createdAt ↔
    ∃ member ∈ manifest.members, seriesTask manifest reference digest createdAt member = task := List.mem_map

theorem ids_seriesTasks : (seriesTasks manifest reference digest createdAt).map idOf = manifest.members.map Member.id := by
  rw [seriesTasks, List.map_map]
  rfl

theorem mem_childIds {child : String} : child ∈ childIds manifest ↔ child ∈ manifest.members.map Member.id ∧ child ≠ manifest.finalizer := by
  rw [childIds, List.mem_filter, bne_iff_ne]

theorem mem_strs {items : List String} {item : String} : Json.str item ∈ items.map Json.str ↔ item ∈ items := by
  rw [List.mem_map]
  constructor
  · rintro ⟨other, inside, same⟩
    exact Json.str.inj same ▸ inside
  · exact fun inside => ⟨item, inside, rfl⟩

theorem dependsOn_seriesTasks : TaskGraph.DependsOn (seriesTasks manifest reference digest createdAt) = DependsOn manifest.members := by
  funext a b
  apply propext
  constructor
  · rintro ⟨task, listed, rfl, depends⟩
    obtain ⟨member, inside, rfl⟩ := mem_seriesTasks.mp listed
    rw [dependenciesOf_seriesTask, Json.items, mem_strs] at depends
    exact ⟨member, inside, rfl, depends⟩
  · rintro ⟨member, inside, rfl, depends⟩
    refine ⟨seriesTask manifest reference digest createdAt member, mem_seriesTasks.mpr ⟨member, inside, rfl⟩, rfl, ?_⟩
    rw [dependenciesOf_seriesTask, Json.items, mem_strs]
    exact depends

section formed
variable {word : Char → Bool} {lower : String → String} (formed : WellFormed word lower manifest)

include formed

theorem finalizer_known : manifest.finalizer ∈ manifest.members.map Member.id := List.mem_of_getLast? formed.ordered.last

theorem finalizer_some : manifest.finalizer ≠ "" := by
  obtain ⟨member, inside, same⟩ := List.mem_map.mp (finalizer_known formed)
  rw [← same]
  exact (formed.members member inside).id.some_

theorem cleanGraph_seriesTasks : CleanGraph (seriesTasks manifest reference digest createdAt) where
  distinct := by
    rw [ids_seriesTasks]
    exact formed.ordered.distinct
  lists := by
    intro task listed
    obtain ⟨member, inside, rfl⟩ := mem_seriesTasks.mp listed
    rw [ids_seriesTasks]
    exact ⟨member.dependencies, dependenciesOf_seriesTask, formed.ordered.once member inside, formed.ordered.known member inside⟩
  acyclic := by
    rw [dependsOn_seriesTasks]
    exact formed.ordered.acyclic

theorem hasParent_seriesTasks {child parent : String} : HasParent (seriesTasks manifest reference digest createdAt) child parent ↔
    child ∈ childIds manifest ∧ parent = manifest.finalizer := by
  rw [mem_childIds]
  constructor
  · rintro ⟨task, listed, rfl, named, some_⟩
    obtain ⟨member, inside, rfl⟩ := mem_seriesTasks.mp listed
    rw [parentOf_seriesTask] at named
    split at named
    next => exact absurd (Json.str.inj named).symm some_
    next below => exact ⟨⟨List.mem_map_of_mem inside, below⟩, (Json.str.inj named).symm⟩
  · rintro ⟨⟨known, below⟩, rfl⟩
    obtain ⟨member, inside, rfl⟩ := List.mem_map.mp known
    refine ⟨seriesTask manifest reference digest createdAt member, mem_seriesTasks.mpr ⟨member, inside, rfl⟩, rfl, ?_, finalizer_some formed⟩
    rw [parentOf_seriesTask, if_neg below]

theorem hasChild_seriesTasks {parent child : String} : HasChild (seriesTasks manifest reference digest createdAt) parent child ↔
    child ∈ childIds manifest ∧ parent = manifest.finalizer := by
  constructor
  · rintro ⟨task, listed, rfl, named⟩
    obtain ⟨member, inside, rfl⟩ := mem_seriesTasks.mp listed
    rw [childrenField_seriesTask, Json.items, mem_strs] at named
    split at named
    next last => exact ⟨named, last⟩
    next => cases named
  · rintro ⟨below, rfl⟩
    obtain ⟨member, inside, last⟩ := List.mem_map.mp (finalizer_known formed)
    refine ⟨seriesTask manifest reference digest createdAt member, mem_seriesTasks.mpr ⟨member, inside, rfl⟩, last, ?_⟩
    rw [childrenField_seriesTask, Json.items, mem_strs, if_pos last]
    exact below

theorem forest_seriesTasks : Forest (seriesTasks manifest reference digest createdAt) where
  linked := by
    intro task listed
    obtain ⟨member, -, rfl⟩ := mem_seriesTasks.mp listed
    refine ⟨.inr (by rw [parentOf_seriesTask]; rfl), _, childrenField_seriesTask, ?_⟩
    split
    next => exact formed.ordered.distinct.filter _
    next => exact List.nodup_nil
  known := by
    intro child parent has
    rw [ids_seriesTasks, ((hasParent_seriesTasks formed).mp has).2]
    exact finalizer_known formed
  knownChild := by
    intro parent child has
    rw [ids_seriesTasks]
    exact (mem_childIds.mp ((hasChild_seriesTasks formed).mp has).1).1
  inverse := by
    intro child parent
    rw [hasParent_seriesTasks formed, hasChild_seriesTasks formed]
  acyclic := by
    -- the finalizer has no parent itself
    intro a cycle
    obtain ⟨b, step, path⟩ := Relation.TransGen.head'_iff.mp cycle
    obtain ⟨below, rfl⟩ := (hasParent_seriesTasks formed).mp step
    rcases path.cases_head with same | ⟨c, next, -⟩
    · exact (mem_childIds.mp below).2 same.symm
    · exact (mem_childIds.mp ((hasParent_seriesTasks formed).mp next).1).2 rfl

/-- The tasks of a series are in order among themselves. -/
theorem seriesTasks_clean : mutationGlobalErrors (seriesTasks manifest reference digest createdAt) = [] := by
  have distinct : ((seriesTasks manifest reference digest createdAt).map idOf).Nodup := by
    rw [ids_seriesTasks]
    exact formed.ordered.distinct
  have named : ∀ task ∈ seriesTasks manifest reference digest createdAt, ExecutionEnvelope.isTask (idOf task) = true := by
    intro task listed
    obtain ⟨member, inside, rfl⟩ := mem_seriesTasks.mp listed
    exact (formed.members member inside).arId
  have idle : ∀ task ∈ seriesTasks manifest reference digest createdAt, isActive task.fields = false := by
    intro task listed
    obtain ⟨member, -, rfl⟩ := mem_seriesTasks.mp listed
    exact isActive_seriesTask
  have identities : identitiesErrors [] ([] ++ seriesTasks manifest reference digest createdAt) = [] :=
    identitiesErrors_append (fun name never => absurd never List.not_mem_nil) rfl distinct idle
  simp only [mutationGlobalErrors, List.append_eq_nil_iff]
  refine ⟨⟨⟨identities, (cleanGraph_seriesTasks formed).nil⟩, clean_of_forest distinct named (forest_seriesTasks formed)⟩, ?_⟩
  rw [supersessionErrors, List.flatMap_eq_nil_iff]
  intro task listed
  obtain ⟨member, -, rfl⟩ := mem_seriesTasks.mp listed
  rw [supersessionError, if_pos supersededBy_seriesTask]

/-- A series keeps a task set in order that has none of its identifiers. -/
theorem series_joins {tasks : List Task} (clean : mutationGlobalErrors tasks = [])
    (fresh : ∀ name ∈ tasks.map idOf, name ∉ manifest.members.map Member.id) :
    mutationGlobalErrors (tasks ++ seriesTasks manifest reference digest createdAt) = [] := by
  apply mutationGlobalErrors_append
  · rw [ids_seriesTasks]
    exact fresh
  · exact clean
  · exact seriesTasks_clean formed
  · intro task listed
    obtain ⟨member, -, rfl⟩ := mem_seriesTasks.mp listed
    exact isActive_seriesTask
  · intro task listed
    obtain ⟨member, -, rfl⟩ := mem_seriesTasks.mp listed
    exact supersededBy_seriesTask

end formed

end

end Coordinator.IssueSeries
