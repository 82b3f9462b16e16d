import Coordinator.Environment

/-! Relations between tasks: the dependency graph, parents and children, and the chain of
successors behind a superseded task. -/

namespace Coordinator.TaskGraph
open Kit

/-- A task as its file name, its metadata and its body. -/
structure Task where
  path : String
  fields : Meta
  body : String

def idOf (task : Task) : String := taskText task.fields

def statusOf (task : Task) : Json := task.fields.get "status"

/-- The task that a map by identifiers holds, the last one under a repeated identifier. -/
def byId (tasks : List Task) (taskId : String) : Option Task :=
  tasks.reverse.find? (fun task => task.fields.get "id" == .str taskId)

/-- Follow successors until a task that is not superseded; a repeated one ends the search. The
fuel counts the identifiers that can still be new. -/
def followSuccessors (tasks : List Task) : Nat → List String → String → Bool
  | 0, _, _ => false
  | fuel + 1, seen, current =>
      if seen.contains current then false
      else match byId tasks current with
        | none => false
        | some task =>
            if statusOf task == .str "done" then true
            else if statusOf task != .str "superseded" then false
            else
              let successor := task.fields.get "superseded_by"
              if successor.isStr && isTaskId successor.text then
                followSuccessors tasks fuel (current :: seen) successor.text
              else false

def dependencySatisfied (dependencyId : String) (tasks : List Task) : Bool :=
  followSuccessors tasks (tasks.length + 1) [] dependencyId

def sortedText (messages : List String) : List String := messages.insertionSort (· ≤ ·)

def dependenciesOf (task : Meta) : Json := if task.has "depends_on" then task.get "depends_on" else .arr []

def taskDependencies (task : Meta) (known : List String) : List String × List String :=
  let taskId := taskText task
  let value := dependenciesOf task
  if !value.isArr || !value.items.all (·.isStr) then
    ([taskId ++ ": dependencies must be a list of AR identifiers"], [])
  else
    let items := value.items.map Json.text
    ((sortedText (items.dedup.filter (fun item => 1 < items.count item))).map
        (fun item => taskId ++ ": duplicate dependency " ++ item) ++
      (items.filter (· == taskId)).map (fun _ => taskId ++ ": self dependency") ++
      (items.filter (fun item => !known.contains item)).map (fun item => taskId ++ ": missing dependency " ++ item),
      items)

def dependencyShape (tasks : List Task) : List String :=
  let ids := tasks.map idOf
  (sortedText (ids.dedup.filter (fun taskId => 1 < ids.count taskId))).map ("duplicate graph node " ++ ·) ++
    tasks.flatMap (fun task => (taskDependencies task.fields ids).1)

/-- The dependencies of a node, as the last task under its identifier lists them. -/
def graphOf (tasks : List Task) (taskId : String) : Option (List String) :=
  (tasks.reverse.find? (fun task => idOf task == taskId)).map
    (fun task => (taskDependencies task.fields (tasks.map idOf)).2)

/-- State of a depth-first search: finished nodes, the stack of open ones and the errors found. -/
structure Search where
  finished : List String
  stack : List String
  errors : List String

/-- The loop over dependencies calls back for each node; every call opens a node that is new, so
the number of nodes bounds the depth. -/
def visit (graph : String → Option (List String)) : Nat → Search → String → Search
  | 0, search, _ => search
  | fuel + 1, search, taskId =>
      if search.finished.contains taskId then search
      else if search.stack.contains taskId then
        let cycle := search.stack.drop (search.stack.idxOf taskId) ++ [taskId]
        { search with errors := search.errors ++ ["dependency cycle: " ++ Text.joined " -> " cycle] }
      else
        let opened := { search with stack := search.stack ++ [taskId] }
        let dependencies := sortedText (((graph taskId).getD []).dedup)
        let searched := (dependencies.filter (fun dependency => (graph dependency).isSome)).foldl
          (visit graph fuel) opened
        { searched with stack := searched.stack.dropLast, finished := taskId :: searched.finished }

def cycleErrors (tasks : List Task) : List String :=
  let nodes := sortedText (tasks.map idOf).dedup
  (nodes.foldl (visit (graphOf tasks) (nodes.length + 1)) ⟨[], [], []⟩).errors

/-- Structural errors of the complete dependency graph. -/
def graphErrors (tasks : List Task) : List String := dependencyShape tasks ++ cycleErrors tasks

def terminalChildStatuses : List String := ["done", "cancelled", "superseded"]

def isTaskRef (value : Json) : Bool := value.isStr && ExecutionEnvelope.isTask value.text

def childrenOf (task : Meta) : List String × List String :=
  let value := if task.has "children" then task.get "children" else .arr []
  if !value.isArr || !value.items.all isTaskRef then ([], ["children must be a list of AR identifiers"])
  else
    let children := value.items.map Json.text
    let duplicates := sortedText (children.dedup.filter (fun item => 1 < children.count item))
    if !duplicates.isEmpty then (children, duplicates.map ("duplicate child " ++ ·))
    else if children.contains (taskText task) then (children, ["task cannot be its own child"])
    else (children, [])

def parentOf (task : Meta) : Json := if task.has "parent_task_ref" then task.get "parent_task_ref" else .str ""

/-- The last task under the text form of an identifier. -/
def byText (tasks : List Task) (taskId : String) : Option Task := tasks.reverse.find? (fun task => idOf task == taskId)

def parentErrors (tasks : List Task) (task : Task) : List String :=
  let parent := parentOf task.fields
  if parent.truthy && !isTaskRef parent then [idOf task ++ ": invalid parent_task_ref"]
  else if parent.truthy then
    if parent.text == idOf task then [idOf task ++ ": parent_task_ref self reference"]
    else if (byText tasks parent.text).isNone then [idOf task ++ ": missing parent task " ++ parent.text]
    else []
  else []

def childErrors (tasks : List Task) (task : Task) : List String :=
  let (children, errors) := childrenOf task.fields
  errors.map (fun error => idOf task ++ ": " ++ error) ++ children.flatMap (fun child =>
    match byText tasks child with
    | none => [idOf task ++ ": missing child task " ++ child]
    | some found =>
        if (parentOf found.fields).toText != idOf task then
          [idOf task ++ ": child " ++ child ++ " does not point back to parent"]
        else [])

/-- The valid parent recorded for an identifier, the last one under a repeated identifier. -/
def parentIn (tasks : List Task) (taskId : String) : Option String :=
  (tasks.reverse.find? (fun task => idOf task == taskId && (parentOf task.fields).truthy &&
    isTaskRef (parentOf task.fields))).map (fun task => (parentOf task.fields).text)

/-- Climbing from a task meets a node twice; the fuel counts the nodes that can still be new. -/
def climbs (tasks : List Task) : Nat → List String → String → Bool
  | 0, _, _ => false
  | fuel + 1, seen, current =>
      match parentIn tasks current with
      | none => false
      | some parent => if seen.contains current then true else climbs tasks fuel (current :: seen) parent

/-- Errors of the edges between parents and children, in order and without repetition. -/
def hierarchyErrors (tasks : List Task) : List String :=
  let ids := (tasks.map idOf).dedup
  let listed (parent child : String) : Bool := (byText tasks parent).any
    (fun task => (childrenOf task.fields).1.contains child)
  let unlisted := ids.flatMap (fun child => match parentIn tasks child with
    | some parent => if listed parent child then [] else [child ++ ": parent " ++ parent ++ " does not list child"]
    | none => [])
  let cycles := (ids.filter (fun taskId => climbs tasks (ids.length + 2) [] taskId)).map
    ("hierarchy cycle involving " ++ ·)
  sortedText (tasks.flatMap (fun task => parentErrors tasks task ++ childErrors tasks task) ++ unlisted ++ cycles).dedup

/-- Why a parent may not become done: some child has not come to its end. -/
def openChildError (task : Meta) (tasks : List Task) : Option String :=
  let children := (tasks.filter (fun candidate => (parentOf candidate.fields).toText == taskText task &&
    !RetryCircuit.oneOf (statusOf candidate) terminalChildStatuses)).map idOf
  if task.get "status" != .str "in_progress" || children.isEmpty then none
  else some ((task.get "id").toText ++ ": cannot complete with open children: " ++
    Text.joined ", " (sortedText children))

def supersessionError (tasks : List Task) (task : Task) : List String :=
  let successor := task.fields.get "superseded_by"
  if successor.isNull then []
  else if statusOf task != .str "superseded" then [idOf task ++ ": superseded_by requires superseded status"]
  else if !(successor.isStr && isTaskId successor.text) then [idOf task ++ ": invalid superseded_by"]
  else if successor.text == idOf task then [idOf task ++ ": superseded_by self reference"]
  else if (byId tasks successor.text).isNone then
    [idOf task ++ ": missing superseded_by task " ++ successor.text]
  else if !dependencySatisfied successor.text tasks then
    [idOf task ++ ": superseded_by chain does not end in done task"]
  else []

def supersessionErrors (tasks : List Task) : List String := tasks.flatMap (supersessionError tasks)

end Coordinator.TaskGraph
