import Coordinator.ExecutionEnvelope
import Coordinator.Kit.Graph
import Coordinator.Kit.Guard
import Coordinator.Kit.JsonOrder
import Coordinator.Privacy
import Mathlib.Data.List.DropRight

/-! Manifests of issue series: how a document is checked and normalized, the payload that a manifest is
stored as, and that the one gives back the other. -/

namespace Coordinator.IssueSeries
open Kit Kit.Regex

structure Dependency where
  id : String
  rationale : String
deriving DecidableEq

structure Member where
  id : String
  shortTitle : String
  scope : String
  acceptance : String
  ownership : String
  dependsOn : List Dependency
deriving DecidableEq

def Member.dependencies (member : Member) : List String := member.dependsOn.map Dependency.id

structure IssueSeriesManifest where
  repository : String
  issueNumber : Int
  issueUrl : String
  issueDigest : String
  members : List Member
  finalizer : String
deriving DecidableEq

def topLevel : List String := ["schema_version", "repository", "issue", "issue_digest", "members", "finalizer"]
def issueFields : List String := ["number", "url"]
def memberFields : List String := ["id", "short_title", "scope", "acceptance", "ownership", "depends_on"]
def dependencyFields : List String := ["id", "rationale"]

def isSlugPart : List Char → Bool
  | [] => false
  | c :: rest => (Text.isLower c || Text.isDigit c) &&
      rest.all fun d => Text.isLower d || Text.isDigit d || d == '_' || d == '.' || d == '-'

/-- An owner and a name. -/
def isSlug (cs : List Char) : Bool :=
  match cs.splitOn '/' with
  | [owner, name] => isSlugPart owner && isSlugPart name
  | _ => false

def isRepository (s : String) : Bool :=
  match Text.stripPrefix? "github.com/".toList s.toList with
  | some rest => isSlug rest
  | none => false

def sortedSet (names : List String) : List String := names.dedup.insertionSort (· ≤ ·)

/-- Read the items of a list under their numbers. -/
def eachFrom {ε α β : Type} (read : Nat → α → Except ε β) : Nat → List α → Except ε (List β)
  | _, [] => pure []
  | index, item :: rest => do
      let value ← read index item
      let values ← eachFrom read (index + 1) rest
      pure (value :: values)

def object (value : Json) (label : String) (allowed : List String) : Except String Dict := do
  raiseIf (!value.isObj) (label ++ " must be an object")
  let unknown := sortedSet (value.fields.keys.filter (!allowed.contains ·))
  let missing := sortedSet (allowed.filter (!value.has ·))
  raiseIf (!unknown.isEmpty) (label ++ " has unknown fields: " ++ Text.joined ", " unknown)
  raiseIf (!missing.isEmpty) (label ++ " is missing fields: " ++ Text.joined ", " missing)
  pure value.fields

section
-- the characters of words, as the pattern for private text sees them, and the text in lower case
variable (word : Char → Bool) (lower : String → String)

/-- A blank, an underscore or a hyphen, or nothing. -/
def joint : Regex Char := Regex.optional (one fun c => c == ' ' || c == '_' || c == '-')

def privateText : Regex Char :=
  alt
    (sequence [alt start (one fun c => Text.isSpace c || c.toNat == 39 || c == '"'),
      choice (Privacy.folded "/home/") [Privacy.folded "/tmp/", sequence [Privacy.literal "~", one fun c => c == '/' || c.toNat == 92],
        Privacy.folded "file://"]])
    (sequence [choice (sequence [Privacy.folded "api", joint, Privacy.folded "key"])
      [sequence [Privacy.folded "access", joint, Privacy.folded "token"], Privacy.folded "password", Privacy.folded "secret",
        sequence [Privacy.folded "private", joint, Privacy.folded "key"], Privacy.folded "prompt"], edge word])

def text (value : Json) (label : String) : Except String String := do
  let stripped := Text.strip value.text
  raiseIf (!value.isStr || stripped == "") (label ++ " must be a non-empty string")
  raiseIf (500 < stripped.length) (label ++ " exceeds 500 characters")
  raiseIf (stripped.toList.contains '\n' || stripped.toList.contains '\r') (label ++ " must be a single line")
  raiseIf ((privateText word).search stripped.toList) (label ++ " contains private or prompt-like text")
  pure stripped

def shortTitle (value : Json) (label : String) : Except String String := do
  let title ← text word value label
  raiseIf (4 < (Text.words title).length) (label ++ " must contain at most four words")
  pure title

def dependency (label : String) (value : Json) : Except String Dependency := do
  let edge ← object value label dependencyFields
  let id ← text word (edge.get "id") (label ++ ".id")
  raiseIf (!ExecutionEnvelope.isTask id) (label ++ ".id must be an AR identifier")
  let rationale ← text word (edge.get "rationale") (label ++ ".rationale")
  pure ⟨id, rationale⟩

def member (index : Nat) (value : Json) : Except String Member := do
  let label := "members[" ++ toString index ++ "]"
  let item ← object value label memberFields
  let id ← text word (item.get "id") (label ++ ".id")
  raiseIf (!ExecutionEnvelope.isTask id) (label ++ ".id must be an AR identifier")
  raiseIf (!(item.get "depends_on").isArr) (label ++ ".depends_on must be a list")
  let parsed ← eachFrom (fun place => dependency word (label ++ ".depends_on[" ++ toString place ++ "]")) 0
    (item.get "depends_on").items
  let title ← shortTitle word (item.get "short_title") (label ++ ".short_title")
  let scope_ ← text word (item.get "scope") (label ++ ".scope")
  let acceptance ← text word (item.get "acceptance") (label ++ ".acceptance")
  let ownership ← text word (item.get "ownership") (label ++ ".ownership")
  pure ⟨id, title, scope_, acceptance, ownership, parsed⟩

end

section graph

def edgeErrors (members : List Member) : List String :=
  let identifiers := members.map Member.id
  members.flatMap fun member =>
    errorIf (!decide member.dependencies.Nodup) (member.id ++ " has duplicate dependencies") ++
      errorIf (member.dependencies.contains member.id) (member.id ++ " depends on itself") ++
        (member.dependencies.filter (!identifiers.contains ·)).map fun item => member.id ++ " has missing dependency " ++ item

/-- What the graph holds under an identifier. -/
def dependenciesIn (members : List Member) (id : String) : List String :=
  ((members.find? fun member => member.id == id).map Member.dependencies).getD []

/-- The dependencies that the search for cycles goes to. -/
def targets (members : List Member) (id : String) : List String :=
  (dependenciesIn members id).filter (members.map Member.id).contains

def cycleText (path : List String) : String := "dependency cycle includes " ++ path.getLast?.getD ""

def cycleErrors (members : List Member) : List String :=
  ((sortedSet (members.map Member.id)).foldl (Graph.explore (targets members) cycleText (members.length + 1)) ⟨[], [], []⟩).reports

/-- Identifiers that are reached from pending ones; every round takes one of them, and each dependency is
pending at most once. -/
def reach (next : String → List String) : Nat → List String → List String → List String
  | fuel + 1, reachable, current :: pending =>
      let grown := (next current).foldl (fun state dependency =>
        if dependency ∈ state.1 then state else (dependency :: state.1, dependency :: state.2)) (reachable, pending)
      reach next fuel grown.1 grown.2
  | _, reachable, _ => reachable

def finalizerErrors (members : List Member) (finalizer : String) : List String :=
  let required := sortedSet ((members.map Member.id).filter (· != finalizer))
  let direct := dependenciesIn members finalizer
  let reachable := reach (dependenciesIn members) (1 + (members.flatMap Member.dependencies).length) [finalizer] [finalizer]
  (required.filter (!direct.contains ·)).map (fun id => "finalizer " ++ finalizer ++ " must directly depend on " ++ id) ++
    (members.filter (!reachable.contains ·.id)).map fun member => member.id ++ " is orphaned from finalizer " ++ finalizer

def graphErrors (members : List Member) (finalizer : String) : List String :=
  edgeErrors members ++ cycleErrors members ++ finalizerErrors members finalizer

end graph

section
variable (word : Char → Bool) (lower : String → String)

/-- The repository and the issue that a manifest is for. -/
structure Identity where
  repository : String
  number : Int
  url : String
  digest : String

def identity (manifest : Dict) : Except String Identity := do
  let repository ← text word (manifest.get "repository") "manifest.repository"
  raiseIf (repository != lower repository) "manifest.repository must be normalized to lowercase"
  raiseIf (!isRepository repository) "manifest.repository must be a normalized github.com owner/name identity"
  let issue ← object (manifest.get "issue") "manifest.issue" issueFields
  let number ← orRaise ((issue.get "number").exactInt?.filter (1 ≤ ·)) "manifest.issue.number must be a positive integer"
  let url ← text word (issue.get "url") "manifest.issue.url"
  raiseIf (url != "https://" ++ repository ++ "/issues/" ++ toString number)
    "manifest.issue.url must bind the normalized repository and immutable issue number"
  let digest ← text word (manifest.get "issue_digest") "manifest.issue_digest"
  raiseIf (!Text.isDigest digest) "manifest.issue_digest must be a lowercase sha256 digest"
  pure ⟨repository, number, url, digest⟩

def members (manifest : Dict) : Except String (List Member × String) := do
  let values := manifest.get "members"
  raiseIf (!values.isArr || values.items.isEmpty) "manifest.members must be a non-empty list"
  let members ← eachFrom (member word) 0 values.items
  let identifiers := members.map Member.id
  raiseIf (!decide identifiers.Nodup) "manifest.members contains duplicate AR identifiers"
  let finalizer ← text word (manifest.get "finalizer") "manifest.finalizer"
  raiseIf (!identifiers.contains finalizer) "manifest.finalizer must identify exactly one member"
  raiseIf (identifiers.getLast? != some finalizer) "manifest.finalizer must be ordered after all members"
  pure (members, finalizer)

def parseManifest (value : Json) : Except String IssueSeriesManifest := do
  let manifest ← object value "manifest" topLevel
  raiseIf (manifest.get "schema_version" != .int 1) "manifest.schema_version must be 1"
  let identity ← identity word lower manifest
  let parsed ← members word manifest
  let errors := graphErrors parsed.1 parsed.2
  raiseIf (!errors.isEmpty) (Text.joined "; " (sortedSet errors))
  pure ⟨identity.repository, identity.number, identity.url, identity.digest, parsed.1, parsed.2⟩

end

def dependencyPayload (dependency : Dependency) : Json := .obj [("id", .str dependency.id), ("rationale", .str dependency.rationale)]

def memberPayload (member : Member) : Json := .obj [("id", .str member.id), ("short_title", .str member.shortTitle),
  ("scope", .str member.scope), ("acceptance", .str member.acceptance), ("ownership", .str member.ownership),
  ("depends_on", .arr (member.dependsOn.map dependencyPayload))]

def manifestPayload (manifest : IssueSeriesManifest) : Json := .obj [("schema_version", .int 1),
  ("repository", .str manifest.repository),
  ("issue", .obj [("number", .int manifest.issueNumber), ("url", .str manifest.issueUrl)]),
  ("issue_digest", .str manifest.issueDigest), ("members", .arr (manifest.members.map memberPayload)),
  ("finalizer", .str manifest.finalizer)]

/-! What a manifest is that these checks let through. -/

section wellFormed
variable (word : Char → Bool) (lower : String → String)

/-- One line of text that needs no stripping and holds nothing private. -/
structure Plain (s : String) : Prop where
  stripped : Text.strip s = s
  some_ : s ≠ ""
  short : s.length ≤ 500
  single : '\n' ∉ s.toList ∧ '\r' ∉ s.toList
  public_ : (privateText word).search s.toList = false

structure FormedDependency (dependency : Dependency) : Prop where
  id : Plain word dependency.id
  arId : ExecutionEnvelope.isTask dependency.id = true
  rationale : Plain word dependency.rationale

structure FormedMember (member : Member) : Prop where
  id : Plain word member.id
  arId : ExecutionEnvelope.isTask member.id = true
  shortTitle : Plain word member.shortTitle
  words : (Text.words member.shortTitle).length ≤ 4
  scope : Plain word member.scope
  acceptance : Plain word member.acceptance
  ownership : Plain word member.ownership
  dependsOn : ∀ dependency ∈ member.dependsOn, FormedDependency word dependency

/-- A member depends on another one. -/
def DependsOn (members : List Member) (a b : String) : Prop := ∃ member ∈ members, member.id = a ∧ b ∈ member.dependencies

/-- The dependencies are known, each named once and without a cycle, and the last member depends on all others. -/
structure OrderedMembers (members : List Member) (finalizer : String) : Prop where
  distinct : (members.map Member.id).Nodup
  last : (members.map Member.id).getLast? = some finalizer
  once : ∀ member ∈ members, member.dependencies.Nodup
  known : ∀ member ∈ members, ∀ dependency ∈ member.dependencies, dependency ∈ members.map Member.id
  acyclic : Graph.Acyclic (DependsOn members)
  closing : ∀ member ∈ members, member.id ≠ finalizer → DependsOn members finalizer member.id

structure WellFormed (manifest : IssueSeriesManifest) : Prop where
  repository : Plain word manifest.repository
  lowered : lower manifest.repository = manifest.repository
  normalized : isRepository manifest.repository = true
  number : 1 ≤ manifest.issueNumber
  url : Plain word manifest.issueUrl
  bound : manifest.issueUrl = "https://" ++ manifest.repository ++ "/issues/" ++ toString manifest.issueNumber
  digest : Plain word manifest.issueDigest
  isDigest : Text.isDigest manifest.issueDigest = true
  members : ∀ member ∈ manifest.members, FormedMember word member
  ordered : OrderedMembers manifest.members manifest.finalizer

end wellFormed

/-! Documents that a manifest can be read from, whatever the order of their keys. -/

def RendersDependency (value : Json) (dependency : Dependency) : Prop :=
  value.hasExactly dependencyFields = true ∧ value.get "id" = .str dependency.id ∧ value.get "rationale" = .str dependency.rationale

structure RendersMember (value : Json) (member : Member) : Prop where
  fields : value.hasExactly memberFields = true
  id : value.get "id" = .str member.id
  shortTitle : value.get "short_title" = .str member.shortTitle
  scope : value.get "scope" = .str member.scope
  acceptance : value.get "acceptance" = .str member.acceptance
  ownership : value.get "ownership" = .str member.ownership
  dependsOn : ∃ items, value.get "depends_on" = .arr items ∧ List.Forall₂ RendersDependency items member.dependsOn

structure Renders (value : Json) (manifest : IssueSeriesManifest) : Prop where
  fields : value.hasExactly topLevel = true
  version : value.get "schema_version" = .int 1
  repository : value.get "repository" = .str manifest.repository
  issue : (value.get "issue").hasExactly issueFields = true
  number : (value.get "issue").get "number" = .int manifest.issueNumber
  url : (value.get "issue").get "url" = .str manifest.issueUrl
  digest : value.get "issue_digest" = .str manifest.issueDigest
  members : ∃ items, value.get "members" = .arr items ∧ List.Forall₂ RendersMember items manifest.members
  finalizer : value.get "finalizer" = .str manifest.finalizer

theorem manifestPayload_renders (manifest : IssueSeriesManifest) : Renders (manifestPayload manifest) manifest where
  fields := rfl
  version := rfl
  repository := rfl
  issue := rfl
  number := rfl
  url := rfl
  digest := rfl
  finalizer := rfl
  members := by
    refine ⟨manifest.members.map memberPayload, rfl, List.forall₂_map_left_iff.mpr (List.forall₂_same.mpr fun member _ => ?_)⟩
    refine ⟨rfl, rfl, rfl, rfl, rfl, rfl, member.dependsOn.map dependencyPayload, rfl, ?_⟩
    exact List.forall₂_map_left_iff.mpr (List.forall₂_same.mpr fun dependency _ => ⟨rfl, rfl, rfl⟩)

theorem sortedSet_eq_nil {names : List String} : sortedSet names = [] ↔ names = [] := by
  rw [sortedSet, ← List.length_eq_zero_iff, List.length_insertionSort, List.length_eq_zero_iff, List.dedup_eq_nil]

theorem mem_sortedSet {names : List String} {name : String} : name ∈ sortedSet names ↔ name ∈ names := by
  rw [sortedSet, List.mem_insertionSort, List.mem_dedup]

/-- An object with exactly the fields that are asked for. -/
theorem object_eq_ok {value : Json} {label : String} {allowed : List String} {fields : Dict} :
    object value label allowed = .ok fields ↔ value.hasExactly allowed = true ∧ value.fields = fields := by
  simp only [object, raiseIf_bind_ok, pure_eq_ok, Bool.not_eq_false', List.isEmpty_iff, sortedSet_eq_nil, List.filter_eq_nil_iff,
    Bool.not_eq_true', Bool.not_eq_false, Json.hasExactly, Bool.and_eq_true, List.all_eq_true]
  constructor
  · rintro ⟨shape, known, present, same⟩
    exact ⟨⟨⟨shape, present⟩, known⟩, same⟩
  · rintro ⟨⟨⟨shape, present⟩, known⟩, same⟩
    exact ⟨shape, known, present, same⟩

/-- Every value is read from an item, under some number. -/
theorem eachFrom_read {ε α β : Type} {read : Nat → α → Except ε β} {items : List α} {values : List β} {first : Nat}
    (all_ : eachFrom read first items = .ok values) : ∀ value ∈ values, ∃ index, ∃ item ∈ items, read index item = .ok value := by
  induction items generalizing first values with
  | nil =>
    rw [eachFrom, pure_eq_ok] at all_
    subst all_
    exact List.forall_mem_nil _
  | cons item rest ih =>
    simp only [eachFrom, bind_eq_ok, pure_eq_ok] at all_
    obtain ⟨value, here, others, later, rfl⟩ := all_
    rw [List.forall_mem_cons]
    refine ⟨⟨first, item, List.mem_cons_self, here⟩, fun other inside => ?_⟩
    obtain ⟨index, item, listed, read⟩ := ih later other inside
    exact ⟨index, item, List.mem_cons_of_mem _ listed, read⟩

theorem eachFrom_eq_ok {ε α β : Type} {read : Nat → α → Except ε β} {related : α → β → Prop} {items : List α} {values : List β}
    (each : List.Forall₂ related items values)
    (reads : ∀ item, ∀ value ∈ values, related item value → ∀ index, read index item = .ok value) (first : Nat) :
    eachFrom read first items = .ok values := by
  induction each generalizing first with
  | nil => rfl
  | @cons item value rest values here _ ih =>
    have later := ih (fun item value inside => reads item value (List.mem_cons_of_mem _ inside)) (first + 1)
    rw [eachFrom, reads item value List.mem_cons_self here first, later]
    rfl

theorem strip_strip (s : String) : Text.strip (Text.strip s) = Text.strip s := by
  have whole (cs : List Char) : ((cs.dropWhile Text.isSpace).reverse.dropWhile Text.isSpace).reverse =
      (cs.dropWhile Text.isSpace).rdropWhile Text.isSpace := rfl
  rw [Text.strip, Text.strip, String.toList_ofList, whole, whole]
  -- what is left starts with the first character that is no blank
  have kept : ((s.toList.dropWhile Text.isSpace).rdropWhile Text.isSpace).dropWhile Text.isSpace =
      (s.toList.dropWhile Text.isSpace).rdropWhile Text.isSpace := by
    rw [List.dropWhile_eq_self_iff]
    intro some_
    have front := List.rdropWhile_prefix Text.isSpace (s.toList.dropWhile Text.isSpace)
    rw [front.getElem some_]
    exact List.dropWhile_get_zero_not Text.isSpace s.toList (some_.trans_le front.length_le)
  rw [kept, List.rdropWhile_idempotent]

section
variable {word : Char → Bool} {lower : String → String} {value : Json} {label s : String}

theorem text_eq_ok : text word value label = .ok s ↔ value.isStr = true ∧ Text.strip value.text = s ∧ Plain word s := by
  simp only [text, raiseIf_bind_ok, pure_eq_ok, Bool.or_eq_false_iff, Bool.not_eq_false', decide_eq_false_iff_not, Nat.not_lt,
    beq_eq_false_iff_ne, List.contains_eq_mem]
  constructor
  · rintro ⟨⟨shape, some_⟩, short, ⟨feed, return_⟩, public_, rfl⟩
    exact ⟨shape, rfl, strip_strip _, some_, short, ⟨feed, return_⟩, public_⟩
  · rintro ⟨shape, rfl, plain⟩
    exact ⟨⟨shape, plain.some_⟩, plain.short, plain.single, plain.public_, rfl⟩

/-- A text that needs no stripping is read as it is. -/
theorem text_plain (plain : Plain word s) (read : value = .str s) : text word value label = .ok s := by
  subst read
  exact text_eq_ok.mpr ⟨rfl, plain.stripped, plain⟩

theorem shortTitle_eq_ok : shortTitle word value label = .ok s ↔ text word value label = .ok s ∧ (Text.words s).length ≤ 4 := by
  simp only [shortTitle, bind_eq_ok, raiseIf_eq_ok, pure_eq_ok, decide_eq_false_iff_not, Nat.not_lt]
  constructor
  · rintro ⟨title, read, _, few, rfl⟩
    exact ⟨read, few⟩
  · rintro ⟨read, few⟩
    exact ⟨s, read, (), few, rfl⟩

theorem dependency_formed {parsed : Dependency} (read : dependency word label value = .ok parsed) : FormedDependency word parsed := by
  simp only [dependency, bind_eq_ok, raiseIf_eq_ok, pure_eq_ok, Bool.not_eq_false'] at read
  obtain ⟨edge, -, id, idRead, _, shaped, rationale, rationaleRead, rfl⟩ := read
  exact ⟨(text_eq_ok.mp idRead).2.2, shaped, (text_eq_ok.mp rationaleRead).2.2⟩

theorem dependency_rendered {parsed : Dependency} (formed : FormedDependency word parsed) (renders : RendersDependency value parsed)
    (label : String) : dependency word label value = .ok parsed := by
  have edge : object value label dependencyFields = .ok value.fields := object_eq_ok.mpr ⟨renders.1, rfl⟩
  simp only [dependency, bind_eq_ok, raiseIf_eq_ok, pure_eq_ok, Bool.not_eq_false']
  exact ⟨_, edge, _, text_plain formed.id renders.2.1, (), formed.arId, _, text_plain formed.rationale renders.2.2, rfl⟩

theorem member_formed {index : Nat} {parsed : Member} (read : member word index value = .ok parsed) : FormedMember word parsed := by
  simp only [member, bind_eq_ok, raiseIf_eq_ok, pure_eq_ok, Bool.not_eq_false', shortTitle_eq_ok] at read
  obtain ⟨item, -, id, idRead, _, shaped, _, -, parsed, each, title, ⟨titleRead, few⟩, scope_, scopeRead, acceptance, acceptanceRead,
    ownership, ownershipRead, rfl⟩ := read
  refine ⟨(text_eq_ok.mp idRead).2.2, shaped, (text_eq_ok.mp titleRead).2.2, few, (text_eq_ok.mp scopeRead).2.2,
    (text_eq_ok.mp acceptanceRead).2.2, (text_eq_ok.mp ownershipRead).2.2, fun dependency inside => ?_⟩
  obtain ⟨place, item, -, here⟩ := eachFrom_read each dependency inside
  exact dependency_formed here

theorem member_rendered {parsed : Member} (formed : FormedMember word parsed) (renders : RendersMember value parsed)
    (index : Nat) : member word index value = .ok parsed := by
  have item (label : String) : object value label memberFields = .ok value.fields := object_eq_ok.mpr ⟨renders.fields, rfl⟩
  obtain ⟨items, listed, each⟩ := renders.dependsOn
  have shape : value.fields.get "depends_on" = .arr items := listed
  simp only [member, bind_eq_ok, raiseIf_eq_ok, pure_eq_ok, Bool.not_eq_false', shortTitle_eq_ok]
  refine ⟨_, item _, _, text_plain formed.id renders.id, (), formed.arId, (), ?_, parsed.dependsOn, ?_, _,
    ⟨text_plain formed.shortTitle renders.shortTitle, formed.words⟩, _, text_plain formed.scope renders.scope, _,
    text_plain formed.acceptance renders.acceptance, _, text_plain formed.ownership renders.ownership, rfl⟩
  · rw [shape]
    rfl
  · rw [shape]
    exact eachFrom_eq_ok each (fun item dependency inside renders _ =>
      dependency_rendered (formed.dependsOn dependency inside) renders _) 0

end

section graph
variable {members : List Member} {finalizer : String}

theorem edgeErrors_eq_nil : edgeErrors members = [] ↔ ∀ member ∈ members, member.dependencies.Nodup ∧
    member.id ∉ member.dependencies ∧ ∀ dependency ∈ member.dependencies, dependency ∈ members.map Member.id := by
  rw [edgeErrors, List.flatMap_eq_nil_iff]
  refine forall₂_congr fun member _ => ?_
  rw [List.append_eq_nil_iff, List.append_eq_nil_iff, errorIf_eq_nil, errorIf_eq_nil, List.map_eq_nil_iff, List.filter_eq_nil_iff]
  simp [and_assoc]

theorem mem_dependenciesIn (distinct : (members.map Member.id).Nodup) {a b : String} :
    b ∈ dependenciesIn members a ↔ DependsOn members a b := by
  rw [dependenciesIn]
  constructor
  · intro listed
    cases found : members.find? fun member => member.id == a with
    | none =>
      rw [found] at listed
      cases listed
    | some member =>
      rw [found] at listed
      exact ⟨member, List.mem_of_find?_eq_some found, by simpa using List.find?_some found, listed⟩
  · rintro ⟨member, inside, rfl, listed⟩
    cases found : members.find? fun other => other.id == member.id with
    | none =>
      have never := List.find?_eq_none.mp found member inside
      exact absurd (beq_self_eq_true member.id) never
    | some other =>
      have named : other.id = member.id := by simpa using List.find?_some found
      have same : other = member := List.inj_on_of_nodup_map distinct (List.mem_of_find?_eq_some found) inside named
      rw [same]
      exact listed

theorem dependenciesIn_outside {a : String} (unknown : a ∉ members.map Member.id) : dependenciesIn members a = [] := by
  have none_ : members.find? (fun member => member.id == a) = none := by
    rw [List.find?_eq_none]
    intro member inside same
    exact unknown (List.mem_map.mpr ⟨member, inside, eq_of_beq same⟩)
  rw [dependenciesIn, none_]
  rfl

/-- The search reports nothing exactly about a graph without a cycle. -/
theorem cycleErrors_eq_nil : cycleErrors members = [] ↔ Graph.Acyclic (Graph.Follows (targets members)) := by
  apply Graph.reports_eq_nil
  · intro a b listed
    have known := (List.mem_filter.mp listed).2
    exact mem_sortedSet.mpr (List.contains_iff_mem.mp known)
  · intro a unknown
    rw [targets, dependenciesIn_outside fun known => unknown (mem_sortedSet.mpr known)]
    rfl
  · rw [sortedSet, List.length_insertionSort]
    have fewer := (List.dedup_sublist (members.map Member.id)).length_le
    rw [List.length_map] at fewer
    omega

theorem follows_targets (distinct : (members.map Member.id).Nodup)
    (known : ∀ member ∈ members, ∀ dependency ∈ member.dependencies, dependency ∈ members.map Member.id) :
    Graph.Follows (targets members) = DependsOn members := by
  funext a b
  rw [Graph.Follows, targets, List.mem_filter, mem_dependenciesIn distinct, List.contains_iff_mem]
  apply propext
  constructor
  · exact And.left
  · rintro ⟨member, inside, rfl, listed⟩
    exact ⟨⟨member, inside, rfl, listed⟩, known member inside b listed⟩

/-- One round adds what it goes through, and keeps what was there. -/
theorem mem_round {next : List String} {state : List String × List String} {name : String}
    (here : name ∈ state.1 ∨ name ∈ next) : name ∈ (next.foldl (fun state dependency =>
      if dependency ∈ state.1 then state else (dependency :: state.1, dependency :: state.2)) state).1 := by
  induction next generalizing state with
  | nil => exact here.resolve_right List.not_mem_nil
  | cons first rest ih =>
    rw [List.foldl_cons]
    apply ih
    rw [List.mem_cons] at here
    split
    next seen =>
      rcases here with here | rfl | later
      · exact .inl here
      · exact .inl seen
      · exact .inr later
    next =>
      rcases here with here | rfl | later
      · exact .inl (List.mem_cons_of_mem _ here)
      · exact .inl List.mem_cons_self
      · exact .inr later

theorem mem_reach (next : String → List String) {fuel : Nat} : ∀ {reachable pending : List String} {name : String},
    name ∈ reachable → name ∈ reach next fuel reachable pending := by
  induction fuel with
  | zero => exact fun here => here
  | succ fuel ih =>
    intro reachable pending name here
    cases pending with
    | nil => exact here
    | cons current pending => exact ih (mem_round (.inl here))

/-- What depends on everything reaches everything, so there is nothing that is orphaned. -/
theorem finalizerErrors_eq_nil : finalizerErrors members finalizer = [] ↔
    ∀ member ∈ members, member.id ≠ finalizer → member.id ∈ dependenciesIn members finalizer := by
  rw [finalizerErrors, List.append_eq_nil_iff, List.map_eq_nil_iff, List.map_eq_nil_iff, List.filter_eq_nil_iff, List.filter_eq_nil_iff]
  constructor
  · rintro ⟨direct, -⟩ member inside other
    have required : member.id ∈ sortedSet ((members.map Member.id).filter (· != finalizer)) := by
      rw [mem_sortedSet, List.mem_filter, bne_iff_ne]
      exact ⟨List.mem_map_of_mem inside, other⟩
    simpa using direct _ required
  · intro direct
    refine ⟨fun name required => ?_, fun member inside => ?_⟩
    · rw [mem_sortedSet, List.mem_filter, bne_iff_ne] at required
      obtain ⟨member, inside, rfl⟩ := List.mem_map.mp required.1
      simpa using direct member inside required.2
    · have reached : member.id ∈ reach (dependenciesIn members) (1 + (members.flatMap Member.dependencies).length) [finalizer] [finalizer] := by
        rw [Nat.add_comm, reach]
        apply mem_reach
        apply mem_round
        by_cases same : member.id = finalizer
        · exact .inl (List.mem_singleton.mpr same)
        · exact .inr (direct member inside same)
      simpa using reached

/-- Nothing is reported about the members exactly when they are in order. -/
theorem graphErrors_eq_nil (distinct : (members.map Member.id).Nodup) (last : (members.map Member.id).getLast? = some finalizer) :
    graphErrors members finalizer = [] ↔ OrderedMembers members finalizer := by
  rw [graphErrors, List.append_eq_nil_iff, List.append_eq_nil_iff, edgeErrors_eq_nil, cycleErrors_eq_nil, finalizerErrors_eq_nil]
  constructor
  · rintro ⟨⟨edges, acyclic⟩, closing⟩
    have known : ∀ member ∈ members, ∀ dependency ∈ member.dependencies, dependency ∈ members.map Member.id :=
      fun member inside => (edges member inside).2.2
    rw [follows_targets distinct known] at acyclic
    exact ⟨distinct, last, fun member inside => (edges member inside).1, known, acyclic,
      fun member inside other => (mem_dependenciesIn distinct).mp (closing member inside other)⟩
  · intro ordered
    rw [follows_targets distinct ordered.known]
    refine ⟨⟨fun member inside => ⟨ordered.once member inside, fun self => ?_, ordered.known member inside⟩, ordered.acyclic⟩,
      fun member inside other => (mem_dependenciesIn distinct).mpr (ordered.closing member inside other)⟩
    exact ordered.acyclic member.id (.single ⟨member, inside, rfl, self⟩)

end graph

/-! A stored manifest is the one that was parsed. -/

section stored
variable {shortest : JsonText.Shortest}

theorem regularItems_map {α : Type} {make : α → Json} (each : ∀ a, JsonText.Regular shortest (make a)) (values : List α) :
    JsonText.RegularItems shortest (values.map make) := by
  induction values with
  | nil => exact trivial
  | cons a rest ih => exact ⟨each a, ih⟩

theorem dependencyPayload_regular (dependency : Dependency) : JsonText.Regular shortest (dependencyPayload dependency) :=
  ⟨show dependencyFields.Nodup by decide, trivial, trivial, trivial⟩

theorem memberPayload_regular (member : Member) : JsonText.Regular shortest (memberPayload member) :=
  ⟨show memberFields.Nodup by decide, trivial, trivial, trivial, trivial, trivial, regularItems_map dependencyPayload_regular _,
    trivial⟩

theorem manifestPayload_regular (manifest : IssueSeriesManifest) : JsonText.Regular shortest (manifestPayload manifest) :=
  ⟨show topLevel.Nodup by decide, trivial, trivial, ⟨show issueFields.Nodup by decide, trivial, trivial, trivial⟩, trivial,
    regularItems_map memberPayload_regular _, trivial, trivial⟩

/-- A document whose keys are put in order keeps its fields. -/
theorem sorted_fields {value : Json} (regular : JsonText.Regular shortest value) : (∀ names, value.hasExactly names = true →
    (JsonText.sortKeys value).hasExactly names = true) ∧ ∀ key field, value.get key = field →
      (JsonText.sortKeys value).get key = JsonText.sortKeys field := by
  refine ⟨fun names exactly => ?_, fun key field same => ?_⟩
  · rw [JsonText.hasExactly_sortKeys regular]
    exact exactly
  · rw [JsonText.get_sorted regular, same]

theorem sorted_items {α : Type} {make : α → Json} (values : List α) :
    JsonText.sortKeys (.arr (values.map make)) = .arr (values.map fun a => JsonText.sortKeys (make a)) := by
  rw [JsonText.sortKeys, JsonText.sortItems_eq, List.map_map]
  rfl

theorem dependencyPayload_sorted (dependency : Dependency) : RendersDependency (JsonText.sortKeys (dependencyPayload dependency)) dependency := by
  have regular : JsonText.Regular (fun mantissa exponent => (mantissa, exponent)) (dependencyPayload dependency) :=
    dependencyPayload_regular dependency
  exact ⟨(sorted_fields regular).1 _ rfl, (sorted_fields regular).2 _ _ rfl, (sorted_fields regular).2 _ _ rfl⟩

theorem memberPayload_sorted (member : Member) : RendersMember (JsonText.sortKeys (memberPayload member)) member := by
  have regular : JsonText.Regular (fun mantissa exponent => (mantissa, exponent)) (memberPayload member) :=
    memberPayload_regular member
  have field := (sorted_fields regular).2
  refine ⟨(sorted_fields regular).1 _ rfl, field _ _ rfl, field _ _ rfl, field _ _ rfl, field _ _ rfl, field _ _ rfl, _,
    (field _ _ rfl).trans (sorted_items member.dependsOn), ?_⟩
  exact List.forall₂_map_left_iff.mpr (List.forall₂_same.mpr fun dependency _ => dependencyPayload_sorted dependency)

theorem manifestPayload_sorted (manifest : IssueSeriesManifest) : Renders (JsonText.sortKeys (manifestPayload manifest)) manifest := by
  have regular : JsonText.Regular (fun mantissa exponent => (mantissa, exponent)) (manifestPayload manifest) :=
    manifestPayload_regular manifest
  have inner : JsonText.Regular (fun mantissa exponent => (mantissa, exponent)) ((manifestPayload manifest).get "issue") :=
    JsonText.regular_get regular "issue"
  have field := (sorted_fields regular).2
  have issue := field "issue" _ rfl
  refine ⟨(sorted_fields regular).1 _ rfl, field _ _ rfl, field _ _ rfl, ?_, ?_, ?_, field _ _ rfl, ⟨_,
    (field _ _ rfl).trans (sorted_items manifest.members), ?_⟩, field _ _ rfl⟩
  · rw [issue]
    exact (sorted_fields inner).1 _ rfl
  · rw [issue]
    exact (sorted_fields inner).2 _ _ rfl
  · rw [issue]
    exact (sorted_fields inner).2 _ _ rfl
  · exact List.forall₂_map_left_iff.mpr (List.forall₂_same.mpr fun member _ => memberPayload_sorted member)

end stored

/-- The file that a manifest is kept in. -/
def projectionText (manifest : IssueSeriesManifest) : List Char :=
  JsonText.dumps JsonText.indented (manifestPayload manifest) ++ ['\n']

theorem loads_projectionText (shortest : JsonText.Shortest) (manifest : IssueSeriesManifest) :
    JsonText.loads shortest (projectionText manifest) = some (JsonText.sortKeys (manifestPayload manifest)) := by
  apply JsonText.loads_pretty_blanks
  · exact JsonText.regular_sortKeys _ (manifestPayload_regular manifest)
  · intro c member
    rw [List.mem_singleton.mp member]
    rfl

section parse
variable {word : Char → Bool} {lower : String → String} {value : Json} {manifest : IssueSeriesManifest}

theorem parseManifest_wellFormed (parsed : parseManifest word lower value = .ok manifest) : WellFormed word lower manifest := by
  simp only [parseManifest, identity, members, bind_eq_ok, raiseIf_eq_ok, orRaise_eq_ok, pure_eq_ok, Bool.not_eq_false',
    bne_eq_false_iff_eq, List.isEmpty_iff, decide_eq_true_eq, Option.filter_eq_some_iff] at parsed
  obtain ⟨fields, -, _, -, _, ⟨repository, repositoryRead, _, lowered, _, normalized, issue, -, number, ⟨-, positive⟩, url, urlRead, _,
    bound, digest, digestRead, _, isDigest, rfl⟩, _, ⟨_, -, parsed, each, _, distinct, finalizer, -, _, -, _, last, rfl⟩, _, clean,
    rfl⟩ := parsed
  refine ⟨(text_eq_ok.mp repositoryRead).2.2, lowered.symm, normalized, positive, (text_eq_ok.mp urlRead).2.2, bound,
    (text_eq_ok.mp digestRead).2.2, isDigest, fun member inside => ?_, (graphErrors_eq_nil distinct last).mp clean⟩
  obtain ⟨index, item, -, read⟩ := eachFrom_read each member inside
  exact member_formed read

/-- A well-formed manifest is read from every document that renders it. -/
theorem parseManifest_rendered (formed : WellFormed word lower manifest) (renders : Renders value manifest) :
    parseManifest word lower value = .ok manifest := by
  have fields : object value "manifest" topLevel = .ok value.fields := object_eq_ok.mpr ⟨renders.fields, rfl⟩
  have issue : object (value.get "issue") "manifest.issue" issueFields = .ok (value.get "issue").fields :=
    object_eq_ok.mpr ⟨renders.issue, rfl⟩
  obtain ⟨items, listed, each⟩ := renders.members
  have ordered := formed.ordered
  have some_ : items ≠ [] := by
    rintro rfl
    have none_ := ordered.last
    rw [List.forall₂_nil_left_iff.mp each] at none_
    cases none_
  have finalizer : manifest.finalizer ∈ manifest.members.map Member.id := List.mem_of_getLast? ordered.last
  have plain : Plain word manifest.finalizer := by
    obtain ⟨member, inside, same⟩ := List.mem_map.mp finalizer
    rw [← same]
    exact (formed.members member inside).id
  have identified : identity word lower value.fields =
      .ok ⟨manifest.repository, manifest.issueNumber, manifest.issueUrl, manifest.issueDigest⟩ := by
    simp only [identity, bind_eq_ok, raiseIf_eq_ok, orRaise_eq_ok, pure_eq_ok, Bool.not_eq_false', bne_eq_false_iff_eq,
      Option.filter_eq_some_iff, Json.exactInt?_eq_some, decide_eq_true_eq]
    exact ⟨_, text_plain formed.repository renders.repository, (), formed.lowered.symm, (), formed.normalized, _, issue, _,
      ⟨renders.number, formed.number⟩, _, text_plain formed.url renders.url, (), formed.bound, _,
      text_plain formed.digest renders.digest, (), formed.isDigest, rfl⟩
  have read : members word value.fields = .ok (manifest.members, manifest.finalizer) := by
    have values : value.fields.get "members" = .arr items := listed
    simp only [members, bind_eq_ok, raiseIf_eq_ok, pure_eq_ok, Bool.or_eq_false_iff, Bool.not_eq_false', decide_eq_true_eq,
      List.contains_iff_mem, values]
    refine ⟨(), ⟨rfl, List.isEmpty_eq_false_iff.mpr some_⟩, _, eachFrom_eq_ok each (fun item member inside renders index =>
      member_rendered (formed.members member inside) renders index) 0, (), ordered.distinct, _,
      text_plain plain renders.finalizer, (), finalizer, (), ?_, rfl⟩
    rw [ordered.last]
    exact bne_self_eq_false _
  have version : (value.fields.get "schema_version" != .int 1) = false := by
    have same : value.fields.get "schema_version" = .int 1 := renders.version
    rw [same]
    rfl
  have clean := (graphErrors_eq_nil ordered.distinct ordered.last).mpr ordered
  simp only [parseManifest, bind_eq_ok, raiseIf_eq_ok, pure_eq_ok]
  exact ⟨_, fields, (), version, _, identified, _, read, (), by rw [clean]; rfl, rfl⟩

/-- What the manifests are that documents can stand for, and that each is read back from its payload and from
the file that it is kept in. -/
theorem manifest_canonical (word : Char → Bool) (lower : String → String) (shortest : JsonText.Shortest) :
    (∀ value manifest, parseManifest word lower value = .ok manifest → WellFormed word lower manifest) ∧
      ∀ manifest, (parseManifest word lower (manifestPayload manifest) = .ok manifest ↔ WellFormed word lower manifest) ∧
        (WellFormed word lower manifest → ∃ stored, JsonText.loads shortest (projectionText manifest) = some stored ∧
          parseManifest word lower stored = .ok manifest) := by
  refine ⟨fun _ _ => parseManifest_wellFormed, fun manifest => ⟨⟨parseManifest_wellFormed, fun formed => ?_⟩, fun formed => ?_⟩⟩
  · exact parseManifest_rendered formed (manifestPayload_renders manifest)
  · exact ⟨_, loads_projectionText shortest manifest, parseManifest_rendered formed (manifestPayload_sorted manifest)⟩

end parse

end Coordinator.IssueSeries
