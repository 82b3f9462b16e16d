import Coordinator.Kit.FileTree
import Coordinator.Kit.Text

/-! The working files of a checkout: task files, their journals and the views generated from tasks
and from observations of the product repository. A transaction writes them one after the other
and puts a snapshot back when it fails. -/

namespace Coordinator.WorkingTree
open Kit

inductive Path where
  | task (name : String)
  | session (task : String)
  | checkpoint (task : String)
  | current
  | status
  | shard (name : String)
  | projectState
  | worktrees
  deriving DecidableEq

abbrev Tree := FileTree Path

/-- A page of the status view: its index, or one of its shards. -/
def Path.page : Option String → Path
  | none => .status
  | some name => .shard name

def Path.isTask : Path → Bool
  | .task _ => true
  | _ => false

def Path.isShard : Path → Bool
  | .shard _ => true
  | _ => false

def Path.isStatus (path : Path) : Bool := path = .status || path.isShard

/-! What a scan of the product repository sees. -/

structure PullRequest where
  number : Int
  headRefName : String
  headRefOid : String
  baseRefName : String
  mergeStateStatus : String
  title : String
  /-- The status and the conclusion of each check, empty where there is none. -/
  checks : List (String × String)
  deriving DecidableEq

structure WorkflowRun where
  databaseId : Int
  headSha : String
  event : String
  workflowName : String
  status : String
  conclusion : String
  deriving DecidableEq

structure Worktree where
  key : String
  branch : String
  head : String
  dirty : Int
  paths : List String
  behind : Option Int
  ahead : Option Int
  deriving DecidableEq

structure Scan where
  remoteMain : String
  originMain : String
  primaryHead : String
  worktrees : List Worktree
  prs : List PullRequest
  runs : List WorkflowRun
  deriving DecidableEq

section liveDocs

def short (oid : String) : String := String.ofList (oid.toList.take 12)

def orDash (text : String) : String := if text = "" then "-" else text

def count : Option Int → String
  | some n => toString n
  | none => "None"

def code (text : String) : String := "`" ++ text ++ "`"

def PullRequest.row (pr : PullRequest) : String :=
  let checks := Text.joined ", " (pr.checks.map fun check => check.1 ++ ":" ++ check.2)
  let title := String.ofList (pr.title.toList.map fun c => if c = '|' then '/' else c)
  "| #" ++ toString pr.number ++ " | " ++ code (pr.headRefName ++ "@" ++ short pr.headRefOid) ++ " | " ++
    code pr.baseRefName ++ " | " ++ pr.mergeStateStatus ++ " | " ++ orDash checks ++ " | " ++ title ++ " |"

def WorkflowRun.row (run : WorkflowRun) : String :=
  "| " ++ toString run.databaseId ++ " | " ++ code (short run.headSha) ++ " | " ++ run.event ++ " | " ++ run.workflowName ++
    " | " ++ run.status ++ ":" ++ orDash run.conclusion ++ " |"

def Worktree.rows (tree : Worktree) : List String :=
  ("| " ++ code tree.key ++ " | " ++ code tree.branch ++ " | " ++ code (short tree.head) ++ " | " ++ toString tree.dirty ++
    " | behind " ++ count tree.behind ++ ", ahead " ++ count tree.ahead ++ " |") ::
    if tree.dirty = 0 then []
    else ["| changed files | - | - | - | " ++ Text.joined ", " (tree.paths.map code) ++ " |"]

/-- The project state and the worktree inventory as a scan shows them. -/
def liveDocs (title : String) (scan : Scan) : String × String :=
  let project :=
    ["# " ++ title ++ " live project state", "", "Generated from local Git and GitHub. Do not edit.", "",
      "- Product remote main: " ++ code scan.remoteMain, "- Local origin/main: " ++ code scan.originMain,
      "- Primary worktree head: " ++ code scan.primaryHead, "", "## Open pull requests", "",
      "| PR | Head | Base | Merge | Checks | Title |", "| --- | --- | --- | --- | --- | --- |"] ++
    (scan.prs.insertionSort (fun a b => a.number ≤ b.number)).map PullRequest.row ++
    ["", "## Recent workflows", "", "| Run | SHA | Event | Workflow | State |", "| --- | --- | --- | --- | --- |"] ++
    scan.runs.map WorkflowRun.row
  let worktrees :=
    ["# " ++ title ++ " worktree inventory", "", "Generated from live Git. Paths are privacy-safe worktree keys.", "",
      "| Worktree | Branch | Head | Dirty | vs origin/main |", "| --- | --- | --- | ---: | --- |"] ++
    scan.worktrees.flatMap Worktree.rows
  (Text.joined "\n" project ++ "\n", Text.joined "\n" worktrees ++ "\n")

end liveDocs

/-- What is rendered from the task files, and what an observation makes of them. -/
structure Views where
  title : String
  statusView : Bool
  synced : Tree → Scan → List (String × String)
  current : Tree → String
  status : Tree → List (Option String × String)

inductive Effect where
  | write (path : Path) (text : String)
  | unlink (path : Path)

def Effect.run (tree : Tree) : Effect → Tree
  | write path text => tree.write path text
  | unlink path => tree.unlink path

def Effect.path : Effect → Path
  | write path _ => path
  | unlink path => path

def runAll (tree : Tree) (effects : List Effect) : Tree := effects.foldl Effect.run tree

section transactions

variable (views : Views)

def generatedPaths (tree : Tree) : List Path :=
  ([.current, .projectState, .worktrees] : List Path) ++
    if views.statusView then .status :: tree.paths.filter Path.isShard else []

/-- Replace the status pages and remove the obsolete ones. -/
def writeStatusViews (tree : Tree) (pages : List (Option String × String)) : List Effect :=
  let expected := pages.map fun page => Path.page page.1
  ((generatedPaths views tree).filter fun path => path.isStatus && !expected.contains path).map .unlink ++
    pages.map fun page => .write (.page page.1) page.2

/-- The views that are rendered from the tasks. -/
def taskViews (tree : Tree) : List Effect :=
  .write .current (views.current tree) :: if views.statusView then writeStatusViews views tree (views.status tree) else []

def syncTaskObservations (tree : Tree) (scan : Scan) : List Effect :=
  (views.synced tree scan).map fun file => .write (.task file.1) file.2

/-- All that a reconciliation writes before it validates. -/
def writeGeneratedViews (tree : Tree) (scan : Scan) : List Effect :=
  let docs := liveDocs views.title scan
  taskViews views tree ++ [Effect.write .projectState docs.1, .write .worktrees docs.2]

def reconcileEffects (tree : Tree) (scan : Scan) : List Effect :=
  let synced := syncTaskObservations views tree scan
  synced ++ writeGeneratedViews views (runAll tree synced) scan

/-- The snapshot that a reconciliation takes of the files it may write. -/
def reconcileBefore (tree : Tree) : FileTree.Snapshot Path :=
  tree.snapshot (tree.paths.filter Path.isTask ++ generatedPaths views tree)

/-- The views that have come up since the snapshot were not there before. -/
def withGenerated (before : FileTree.Snapshot Path) (tree : Tree) : FileTree.Snapshot Path :=
  before ++ (generatedPaths views tree).map fun path => (path, none)

end transactions

end Coordinator.WorkingTree
