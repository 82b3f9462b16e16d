import Coordinator.EnvelopeNarrowing

/-! The mounts of an admitted launch against the scopes it was admitted by. -/

namespace Coordinator.ExecutionEnvelope
open Kit

variable {envelope : Json} {launch : Launch} {roots : Roots} {tree : Tree} {declared : String} {writable : Bool}

/-- The mount of a declared path whose root is there. -/
def mountFor (writable : Bool) (declared : String) : Mount where
  destination := if (parseDeclared declared).qualified || (parseDeclared declared).selected then
    (parseDeclared declared).root ++ "/" ++ relativeOf declared else relativeOf declared
  root := (parseDeclared declared).root
  parts := Text.pathParts (relativeOf declared)
  writable := writable

/-- A declared path has a root, and real entries up to its last part. -/
def Mountable (roots : Roots) (declared : String) : Prop :=
  ∃ tree, roots.find (parseDeclared declared).root = some tree ∧ Resolves tree (relativeOf declared)

theorem mountOf_eq_ok {mount : Mount} :
    mountOf roots writable declared = .ok mount ↔ Mountable roots declared ∧ mount = mountFor writable declared := by
  have none_ : Text.pathParts "." = [] := by decide
  cases found : roots.find (parseDeclared declared).root with
  | none =>
    have refused : mountOf roots writable declared = throw "execution envelope path scope has an unavailable root" := by
      rw [mountOf]
      simp only [found]
    rw [refused]
    refine iff_of_false (by simp) ?_
    rintro ⟨⟨tree, there, -⟩, -⟩
    rw [found] at there
    cases there
  | some tree =>
    have made : mountOf roots writable declared = if relativeOf declared == "." then
          pure [] >>= fun parts => pure { mountFor writable declared with parts := parts }
        else (envelopeScopePath tree (relativeOf declared)).mapError ScopeFault.text >>= fun parts =>
          pure { mountFor writable declared with parts := parts } := by
      rw [mountOf]
      simp only [found]
      rfl
    have mountable : Mountable roots declared ↔ Resolves tree (relativeOf declared) := by
      rw [Mountable, found]
      simp
    rw [made, mountable, Resolves]
    by_cases here : relativeOf declared = "."
    · simp only [here, beq_self_eq_true, if_true, bind_eq_ok, pure_eq_ok, mountFor, none_, true_or, true_and,
        exists_eq_left']
      exact ⟨Eq.symm, Eq.symm⟩
    · have away : (relativeOf declared == ".") = false := beq_false_of_ne here
      simp only [away, Bool.false_eq_true, if_false, bind_eq_ok, pure_eq_ok, mapError_eq_ok, envelopeScopePath_eq_ok, here,
        false_or, mountFor]
      constructor
      · rintro ⟨_, ⟨rfl, clear⟩, rfl⟩
        exact ⟨clear, rfl⟩
      · rintro ⟨clear, rfl⟩
        exact ⟨_, ⟨rfl, clear⟩, rfl⟩

/-- The mounts of a list of paths are there when each of them is. -/
theorem mapM_mountOf {items : List String} : ∀ {mounts : List Mount}, items.mapM (mountOf roots writable) = .ok mounts ↔
    (∀ item ∈ items, Mountable roots item) ∧ mounts = items.map (mountFor writable) := by
  induction items with
  | nil =>
    intro mounts
    simp only [List.mapM_nil, pure_eq_ok, List.not_mem_nil, false_implies, implies_true, List.map_nil, true_and]
    exact ⟨Eq.symm, Eq.symm⟩
  | cons item rest ih =>
    intro mounts
    simp only [List.mapM_cons, bind_eq_ok, pure_eq_ok, mountOf_eq_ok, ih, List.forall_mem_cons, List.map_cons]
    constructor
    · rintro ⟨_, ⟨mountable, rfl⟩, _, ⟨others, rfl⟩, rfl⟩
      exact ⟨⟨mountable, others⟩, rfl⟩
    · rintro ⟨⟨mountable, others⟩, rfl⟩
      exact ⟨_, ⟨mountable, rfl⟩, _, ⟨others, rfl⟩, rfl⟩

/-- The metadata of Git as a mount. -/
def metadataMount (roots : Roots) : Mount := ⟨if roots.state.isSome then "product/.git" else ".git", "product", [".git"], false⟩

theorem envelopeSandboxMounts_eq_ok {readScope writeScope : List String} {gitMetadata : Bool} {mounts : List Mount} :
    envelopeSandboxMounts roots readScope writeScope gitMetadata = .ok mounts ↔
      ((∀ item ∈ readScope, Mountable roots item) ∧ (∀ item ∈ writeScope, Mountable roots item) ∧
        (gitMetadata = true → Clear roots.product [".git"])) ∧
      mounts = readScope.map (mountFor false) ++ (if gitMetadata then [metadataMount roots] else []) ++
        writeScope.map (mountFor true) := by
  have git : Text.pathParts ".git" = [".git"] := by decide
  rw [envelopeSandboxMounts]
  cases gitMetadata with
  | false =>
    simp only [Bool.false_eq_true, if_false, bind_eq_ok, pure_eq_ok, mapM_mountOf, false_implies, and_true]
    constructor
    · rintro ⟨_, ⟨reads, rfl⟩, _, ⟨writes, rfl⟩, _, rfl, rfl⟩
      exact ⟨⟨reads, writes⟩, rfl⟩
    · rintro ⟨⟨reads, writes⟩, rfl⟩
      exact ⟨_, ⟨reads, rfl⟩, _, ⟨writes, rfl⟩, _, rfl, rfl⟩
  | true =>
    simp only [if_true, bind_eq_ok, pure_eq_ok, mapM_mountOf, true_implies, mapError_eq_ok, envelopeScopePath_eq_ok, git]
    constructor
    · rintro ⟨_, ⟨reads, rfl⟩, _, ⟨writes, rfl⟩, _, ⟨rfl, clear⟩, _, rfl, rfl⟩
      exact ⟨⟨reads, writes, clear⟩, rfl⟩
    · rintro ⟨⟨reads, writes, clear⟩, rfl⟩
      exact ⟨_, ⟨reads, rfl⟩, _, ⟨writes, rfl⟩, _, ⟨rfl, clear⟩, _, rfl, rfl⟩

theorem walk_append {xs ys : List String} : ∀ {reached : List String},
    walk tree reached (xs ++ ys) = walk tree reached xs >>= fun next => walk tree next ys := by
  induction xs with
  | nil =>
    intro reached
    rfl
  | cons part rest ih =>
    intro reached
    rw [List.cons_append, walk, walk]
    by_cases null : Text.contains '\x00' part = true
    · rw [if_pos null, if_pos null]
      rfl
    · rw [if_neg null, if_neg null]
      cases tree (reached ++ [part]) with
      | none => rfl
      | some kind =>
        cases kind with
        | link => rfl
        | directory => exact ih
        | file => exact ih

/-- A part with a null character is refused as such where the way to it is real. -/
theorem walkParts_null {lead : List String} {part : String} (clear : Clear tree lead) (plain : ∀ other ∈ lead ++ [part],
    other ≠ "" ∧ other ≠ ".") (kept : part ≠ "..") (null : Text.contains '\x00' part = true) :
    walkParts tree (lead ++ [part]) = .error .null := by
  have dots : ((lead ++ [part]).isEmpty || (lead ++ [part]).any (["", ".", ".."].contains ·)) = false := by
    rw [Bool.or_eq_false_iff, List.any_eq_false]
    refine ⟨by simp, fun other member dotted => ?_⟩
    have off := plain other member
    obtain rfl : other = ".." := by simpa [off.1, off.2] using dotted
    obtain early | last := List.mem_append.mp member
    · exact clear.no_parent early
    · exact kept (List.mem_singleton.mp last).symm
  have reached : walk tree [] lead = .ok lead := walk_eq_ok.mpr ⟨rfl, clear.real⟩
  rw [walkParts, dots, if_neg Bool.false_ne_true, walk_append, reached, ok_bind, walk, if_pos null]

/-- Of a path that passes, only the leaf can be missing. -/
theorem clear_iff_leaf {command relative : String} (passed : walkDenial command tree relative = none) :
    Clear tree (Text.pathParts relative) ↔ (Text.pathParts relative).getLast? ≠ some ".." ∧
      (tree (Text.pathParts relative) = some .directory ∨ tree (Text.pathParts relative) = some .file) := by
  constructor
  · intro clear
    refine ⟨fun up => clear.no_parent (List.mem_of_getLast? up), ?_⟩
    have leaf := (clear.real (Text.pathParts relative).dropLast ((Text.pathParts relative).getLast clear.some_part)
      (by rw [List.dropLast_append_getLast])).2
    rwa [List.dropLast_append_getLast] at leaf
  · rintro ⟨kept, leaf⟩
    obtain clear | ⟨-, long, clear, proper⟩ := walkDenial_eq_none.mp passed
    · exact clear
    · have some_ : Text.pathParts relative ≠ [] := fun none_ => by
        rw [none_, List.length_nil] at long
        omega
      rw [List.getLast?_eq_getLast_of_ne_nil some_, ne_eq, Option.some.injEq] at kept
      have plain : ∀ other ∈ Text.pathParts relative, other ≠ "" ∧ other ≠ "." :=
        fun other member => (Text.mem_pathParts.mp member).2
      have spelled := (List.dropLast_append_getLast some_).symm
      refine ⟨some_, fun up => ?_, fun lead part before => ?_⟩
      · rw [spelled, List.mem_append, List.mem_singleton] at up
        obtain early | last := up
        · exact clear.no_parent early
        · exact kept last.symm
      · rw [spelled, List.prefix_concat_iff] at before
        obtain same | early := before
        · obtain ⟨rfl, rfl⟩ := List.append_singleton_inj.mp same
          rw [← spelled]
          refine ⟨?_, leaf⟩
          rw [← Bool.not_eq_true]
          intro null
          rw [spelled] at plain
          have refused := walkParts_null clear plain kept null
          rw [← spelled] at refused
          exact proper refused
        · exact clear.real lead part early

/-- The sandbox of a launch has its mounts, and those that can be written lie inside the scopes for writing. -/
def Confined (envelope : Json) (launch : Launch) (roots : Roots) : Prop :=
  ∃ mounts, launchMounts envelope launch roots = .ok mounts ∧ ∀ mount ∈ mounts, mount.writable = true →
    ∃ scope ∈ scopesOf envelope "write", Inside scope mount.root mount.parts

/-- What the mounts need beyond admission: everything that may be read is there, so is the metadata of Git for a
publication, and each path to be written ends at a real entry and is covered by a scope of its kind. -/
structure Grounded (envelope : Json) (launch : Launch) (roots : Roots) : Prop where
  reads : ∀ scope ∈ scopesOf envelope "read", Mountable roots scope
  metadata : launch.command = "git-publication" → Clear roots.product [".git"]
  leaf : mutating launch.command = true → ∀ declared ∈ launch.paths, relativeOf declared ≠ "." →
    (Text.pathParts (relativeOf declared)).getLast? ≠ some ".." ∧
      ∀ tree, roots.find (parseDeclared declared).root = some tree →
        tree (Text.pathParts (relativeOf declared)) = some .directory ∨ tree (Text.pathParts (relativeOf declared)) = some .file
  kindred : mutating launch.command = true → ∀ declared ∈ launch.paths, ∃ scope ∈ scopesOf envelope "write",
    covers (parseDeclared declared).root declared scope = true ∧ Kindred scope declared ∨
      selectedRoot scope = none ∧ Inside scope (parseDeclared declared).root (Text.pathParts (parseDeclared declared).relative)

/-- An admitted path can be mounted exactly when its leaf is a real entry. -/
theorem mountable_iff {command : String} {scopes : List String} (accepted : declaredDenial command scopes roots declared = none) :
    Mountable roots declared ↔ (relativeOf declared ≠ "." → (Text.pathParts (relativeOf declared)).getLast? ≠ some ".." ∧
      ∀ tree, roots.find (parseDeclared declared).root = some tree →
        tree (Text.pathParts (relativeOf declared)) = some .directory ∨
          tree (Text.pathParts (relativeOf declared)) = some .file) := by
  obtain ⟨tree, found, -, -, walked⟩ := declaredDenial_eq_none.mp accepted
  have only : Mountable roots declared ↔ Resolves tree (relativeOf declared) := by
    rw [Mountable, found]
    simp
  rw [only, Resolves, found]
  by_cases here : relativeOf declared = "."
  · simp [here]
  · simp only [here, false_or, ne_eq, not_false_eq_true, true_implies, Option.some.injEq, forall_eq']
    exact clear_iff_leaf (walked.resolve_left here)

theorem confined_iff_grounded (free : envelopeDenial envelope launch roots = none) :
    Confined envelope launch roots ↔ Grounded envelope launch roots := by
  obtain ⟨-, capable, scopes⟩ := envelopeDenial_eq_none.mp free
  have metadata := (capabilityDenial_eq_none.mp capable).1
  have accepted := (scopeDenial_eq_none.mp scopes).2
  have git : (launch.command == "git-publication" && capabilityAllowed envelope "git_metadata") = true ↔
      launch.command = "git-publication" := by
    rw [Bool.and_eq_true, beq_iff_eq]
    exact ⟨And.left, fun publication => ⟨publication, metadata publication⟩⟩
  -- The mounts that can be written are those of the declared paths of a changing class.
  have listed (mounts : List Mount) (computed : mounts = (scopesOf envelope "read").map (mountFor false) ++
      (if launch.command == "git-publication" && capabilityAllowed envelope "git_metadata" then [metadataMount roots] else []) ++
        (if mutating launch.command then launch.paths else []).map (mountFor true)) :
      (∀ mount ∈ mounts, mount.writable = true → ∃ scope ∈ scopesOf envelope "write", Inside scope mount.root mount.parts) ↔
        (mutating launch.command = true → ∀ declared ∈ launch.paths, ∃ scope ∈ scopesOf envelope "write",
          Inside scope (parseDeclared declared).root (Text.pathParts (parseDeclared declared).relative)) := by
    rw [computed]
    constructor
    · intro all changes declared member
      rw [if_pos changes] at all
      have inside := all (mountFor true declared) (List.mem_append_right _ (List.mem_map_of_mem member)) rfl
      rw [mountFor, relativeOf_parts] at inside
      exact inside
    · intro all mount member writable
      obtain before | written := List.mem_append.mp member
      · obtain read | metadata := List.mem_append.mp before
        · obtain ⟨declared, -, rfl⟩ := List.mem_map.mp read
          cases writable
        · split at metadata
          · rw [List.mem_singleton.mp metadata] at writable
            cases writable
          · cases metadata
      · obtain ⟨declared, kept, rfl⟩ := List.mem_map.mp written
        split at kept
        · rw [mountFor, relativeOf_parts]
          exact all ‹_› declared kept
        · cases kept
  have placed (changes : mutating launch.command = true) (declared : String) (member : declared ∈ launch.paths) :=
    inside_iff (if_pos (c := mutating launch.command = true) changes ▸ accepted declared member)
  rw [Confined]
  simp only [launchMounts, envelopeSandboxMounts_eq_ok]
  constructor
  · rintro ⟨mounts, ⟨⟨reads, writes, clear⟩, computed⟩, inside⟩
    have within := (listed mounts computed).mp inside
    refine ⟨reads, fun publication => clear (git.mpr publication), fun changes declared member => ?_,
      fun changes declared member => (placed changes declared member).mp ?_⟩
    · rw [if_pos changes] at writes
      exact (mountable_iff (accepted declared member)).mp (writes declared member)
    · exact within changes declared member
  · rintro ⟨reads, clear, leaf, kindred⟩
    refine ⟨_, ⟨⟨reads, fun declared member => ?_, fun published => clear (git.mp published)⟩, rfl⟩,
      (listed _ rfl).mpr fun changes declared member => (placed changes declared member).mpr (kindred changes declared member)⟩
    split at member
    · exact (mountable_iff (accepted declared member)).mpr (leaf ‹_› declared member)
    · cases member

/-- The sample envelope with writing as its only class. -/
def writingEnvelope : Json := .obj ((TaskValidation.sampleEnvelope 1 4).fields.set "command_classes"
  (.obj [("source-write", .obj [("allowed", .bool true)])]))

/-- The write of a path that `src` covers and that may be missing is allowed. -/
theorem writing_allowed (paths : List String) (free : (envelopeDenial writingEnvelope ⟨"source-write", paths, false, 60⟩
      ⟨sampleProduct, none, none⟩).isNone = true) :
    ∃ verdict, preflight TaskValidation.sampleWorld (boundSample writingEnvelope) "worker" ⟨"source-write", paths, false, 60⟩
      sampleProduct none none = .ok verdict ∧ verdict.allowed = true :=
  preflight_allowed.mpr ⟨by simp, boundSample_inForce (by decide +kernel) rfl rfl rfl rfl rfl rfl,
    boundSample_claimed writingEnvelope, Option.isNone_iff_eq_none.mp free⟩

theorem clear_src : Clear sampleProduct ["src"] where
  some_part := by simp
  no_parent := by decide
  real lead part before := by
    obtain ⟨rest, split⟩ := before
    cases lead with
    | nil =>
      obtain rfl : part = "src" := (List.cons.inj split).1
      exact ⟨by decide, .inl rfl⟩
    | cons first lead => simp at split

end Coordinator.ExecutionEnvelope
