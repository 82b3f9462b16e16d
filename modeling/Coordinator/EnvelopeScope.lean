import Coordinator.Preflight
import Coordinator.Validity

/-! What the scope check of an envelope lets through: where declared paths lead and which scopes they lie in. -/

namespace Coordinator.ExecutionEnvelope
open Kit

variable {tree : Tree} {roots : Roots} {scopes paths : List String} {command declared scope root : String}

/-- Every entry on the way exists and is no link, and none of them leads upwards. -/
structure Clear (tree : Tree) (parts : List String) : Prop where
  some_part : parts ≠ []
  no_parent : ".." ∉ parts
  real : ∀ lead part, lead ++ [part] <+: parts → Text.contains '\x00' part = false ∧
    (tree (lead ++ [part]) = some .directory ∨ tree (lead ++ [part]) = some .file)

/-- A walk returns its parts exactly when it meets a real entry at each of them. -/
theorem walk_eq_ok {parts : List String} : ∀ {reached result : List String}, walk tree reached parts = .ok result ↔
    result = reached ++ parts ∧ ∀ lead part, lead ++ [part] <+: parts → Text.contains '\x00' part = false ∧
      (tree (reached ++ lead ++ [part]) = some .directory ∨ tree (reached ++ lead ++ [part]) = some .file) := by
  induction parts with
  | nil =>
    intro reached result
    have none_ : ∀ lead part, ¬ lead ++ [part] <+: ([] : List String) := fun lead part before => by
      simpa using List.prefix_nil.mp before
    simp only [walk, Except.ok.injEq, List.append_nil, none_, false_implies, implies_true, and_true]
    exact ⟨Eq.symm, Eq.symm⟩
  | cons part rest ih =>
    intro reached result
    -- The entries on the way to the rest are those on the way to the whole, past the first one.
    have longer : (∀ lead other, lead ++ [other] <+: part :: rest → Text.contains '\x00' other = false ∧
        (tree (reached ++ lead ++ [other]) = some .directory ∨ tree (reached ++ lead ++ [other]) = some .file)) ↔
      (Text.contains '\x00' part = false ∧ (tree (reached ++ [part]) = some .directory ∨
        tree (reached ++ [part]) = some .file)) ∧
      ∀ lead other, lead ++ [other] <+: rest → Text.contains '\x00' other = false ∧
        (tree (reached ++ [part] ++ lead ++ [other]) = some .directory ∨
          tree (reached ++ [part] ++ lead ++ [other]) = some .file) := by
      constructor
      · intro all
        refine ⟨by simpa using all [] part (by simp), fun lead other before => ?_⟩
        simpa using all (part :: lead) other (by simpa using before)
      · rintro ⟨first, others⟩ lead other before
        cases lead with
        | nil =>
          obtain rfl : other = part := by simpa using before
          simpa using first
        | cons next lead =>
          rw [List.cons_append, List.cons_prefix_cons] at before
          obtain ⟨rfl, before⟩ := before
          simpa using others lead other before
    rw [longer, walk]
    by_cases null : Text.contains '\x00' part = true
    · simp [null]
    · rw [Bool.not_eq_true] at null
      simp only [null, Bool.false_eq_true, if_false, true_and]
      cases found : tree (reached ++ [part]) with
      | none => simp
      | some kind =>
        cases kind with
        | link => simp
        | directory =>
          rw [ih]
          simp
        | file =>
          rw [ih]
          simp

/-- The walk along the parts of a text, or along the first of them, meets real entries only. -/
theorem walkParts_eq_ok {parts result : List String} (plain : ∀ part ∈ parts, part ≠ "" ∧ part ≠ ".") :
    walkParts tree parts = .ok result ↔ result = parts ∧ Clear tree parts := by
  have parents : parts.any (["", ".", ".."].contains ·) = true ↔ ".." ∈ parts := by
    rw [List.any_eq_true]
    constructor
    · rintro ⟨part, member, dotted⟩
      have off := plain part member
      obtain rfl : part = ".." := by simpa [off.1, off.2] using dotted
      exact member
    · exact fun member => ⟨"..", member, by decide⟩
  rw [walkParts]
  by_cases none_ : parts = []
  · subst none_
    simp only [List.isEmpty_nil, Bool.true_or, if_true]
    exact iff_of_false (by simp) fun clear => clear.2.some_part rfl
  · by_cases up : ".." ∈ parts
    · rw [parents.mpr up, Bool.or_true, if_pos rfl]
      exact iff_of_false (by simp) fun clear => clear.2.no_parent up
    · have kept : (parts.isEmpty || parts.any (["", ".", ".."].contains ·)) = false := by
        rw [Bool.or_eq_false_iff]
        exact ⟨by simpa using none_, by rw [← Bool.not_eq_true, parents]; exact up⟩
      rw [kept, if_neg Bool.false_ne_true, walk_eq_ok]
      exact ⟨fun ⟨same, real⟩ => ⟨same, none_, up, real⟩, fun ⟨same, clear⟩ => ⟨same, clear.real⟩⟩

theorem envelopeScopePath_eq_ok {relative : String} {result : List String} :
    envelopeScopePath tree relative = .ok result ↔
      result = Text.pathParts relative ∧ Clear tree (Text.pathParts relative) :=
  walkParts_eq_ok fun _ member => (Text.mem_pathParts.mp member).2

/-- A path passes when all of it is there, or all but its last part where its class may name a new one. -/
theorem walkDenial_eq_none {relative : String} : walkDenial command tree relative = none ↔
    Clear tree (Text.pathParts relative) ∨ mutating command = true ∧ 2 ≤ (Text.pathParts relative).length ∧
      Clear tree (Text.pathParts relative).dropLast ∧ envelopeScopePath tree relative ≠ .error .null := by
  have before : ∀ part ∈ (Text.pathParts relative).dropLast, part ≠ "" ∧ part ≠ "." :=
    fun part member => (Text.mem_pathParts.mp (List.dropLast_subset _ member)).2
  rw [walkDenial]
  cases walked : envelopeScopePath tree relative with
  | ok parts => simp [(envelopeScopePath_eq_ok.mp walked).2]
  | error fault =>
    have stuck : ¬ Clear tree (Text.pathParts relative) := fun clear => by
      rw [envelopeScopePath_eq_ok.mpr ⟨rfl, clear⟩] at walked
      cases walked
    cases fault with
    | null => simp [stuck]
    | _ =>
      -- Short of a null character the fallback decides, whatever else went wrong.
      dsimp only
      by_cases short : (!mutating command || decide ((Text.pathParts relative).length < 2)) = true
      · rw [if_pos short]
        refine iff_of_false (by split <;> simp) ?_
        rintro (clear | ⟨changes, long, -⟩)
        · exact stuck clear
        · simp [changes] at short
          omega
      · rw [if_neg short]
        simp only [Bool.or_eq_true, Bool.not_eq_true', decide_eq_true_eq, not_or, Bool.not_eq_false, not_lt] at short
        cases parent : walkParts tree (Text.pathParts relative).dropLast with
        | ok parts => simp [short.1, short.2, ((walkParts_eq_ok before).mp parent).2]
        | error other =>
          refine iff_of_false (by simp) ?_
          rintro (clear | ⟨-, -, clear, -⟩)
          · exact stuck clear
          · rw [(walkParts_eq_ok before).mpr ⟨rfl, clear⟩] at parent
            cases parent

theorem selectedRoot_eq_some (selected : selectedRoot declared = some root) :
    declared = "product-root" ∧ root = "product" ∨ declared = "state-root" ∧ root = "state" ∨
      declared = "source-root" ∧ root = "source" := by
  rw [selectedRoot] at selected
  split at selected
  · exact .inl ⟨‹_›, (Option.some.inj selected).symm⟩
  · split at selected
    · exact .inr (.inl ⟨‹_›, (Option.some.inj selected).symm⟩)
    · split at selected
      · exact .inr (.inr ⟨‹_›, (Option.some.inj selected).symm⟩)
      · cases selected

theorem find_eq_some (found : roots.find root = some tree) : root = "product" ∨ root = "state" ∨ root = "source" := by
  rw [Roots.find] at found
  split at found
  · exact .inl ‹_›
  · split at found
    · exact .inr (.inl ‹_›)
    · split at found
      · exact .inr (.inr ‹_›)
      · cases found

theorem parseDeclared_selector (selected : selectedRoot declared = some root) :
    parseDeclared declared = ⟨root, "", true, false⟩ := by
  obtain ⟨rfl, rfl⟩ | ⟨rfl, rfl⟩ | ⟨rfl, rfl⟩ := selectedRoot_eq_some selected <;> rfl

theorem parseDeclared_plain (bare : Text.contains ':' declared = false) (unselected : selectedRoot declared = none) :
    parseDeclared declared = ⟨"product", declared, false, false⟩ := by
  simp only [parseDeclared, unselected, bare, Bool.false_eq_true, if_false]

/-- A declared path with a colon splits at the first one. -/
theorem parseDeclared_split {lead rest : String} (split : declared.toList = lead.toList ++ ':' :: rest.toList)
    (free : ':' ∉ lead.toList) : parseDeclared declared = ⟨lead, rest, false, true⟩ := by
  have colon : Text.contains ':' declared = true := by
    rw [Text.contains, split]
    simp
  have unselected : selectedRoot declared = none := by
    cases selected : selectedRoot declared with
    | none => rfl
    | some root =>
      obtain ⟨rfl, -⟩ | ⟨rfl, -⟩ | ⟨rfl, -⟩ := selectedRoot_eq_some selected <;> exact absurd colon (by decide)
  have kept : ∀ c ∈ lead.toList, decide (c ≠ ':') = true := fun c member => by
    rw [decide_eq_true_eq]
    rintro rfl
    exact free member
  have before : declared.toList.takeWhile (· ≠ ':') = lead.toList := by
    rw [split, List.takeWhile_append_of_pos kept]
    simp
  have after : (declared.toList.dropWhile (· ≠ ':')).drop 1 = rest.toList := by
    rw [split, List.dropWhile_append_of_pos kept]
    simp
  simp only [parseDeclared, unselected, colon, if_true, before, after, String.ofList_toList]

theorem split_of_contains (colon : Text.contains ':' declared = true) : ∃ lead rest : String,
    declared.toList = lead.toList ++ ':' :: rest.toList ∧ ':' ∉ lead.toList := by
  rw [Text.contains, List.contains_iff_mem] at colon
  obtain ⟨lead, rest, split, free⟩ := List.eq_append_cons_of_mem colon
  exact ⟨String.ofList lead, String.ofList rest, by simpa using split, by simpa using free⟩

/-- However it is split, the name that scopes are compared with is the declared text. -/
theorem declared_name (relative : String) (same : (parseDeclared declared).selected = false →
    relative = (parseDeclared declared).relative) :
    (if (parseDeclared declared).qualified then (parseDeclared declared).root ++ ":" ++ relative else declared) = declared := by
  by_cases colon : Text.contains ':' declared = true
  · obtain ⟨lead, rest, split, free⟩ := split_of_contains colon
    rw [parseDeclared_split split free] at same ⊢
    rw [if_pos rfl, same rfl]
    apply String.toList_inj.mp
    rw [split]
    simp
  · rw [Bool.not_eq_true] at colon
    cases selected : selectedRoot declared with
    | none => rw [parseDeclared_plain colon selected, if_neg Bool.false_ne_true]
    | some root => rw [parseDeclared_selector selected, if_neg Bool.false_ne_true]

/-- What a root and a relative text lead to: the root itself or a path of real entries. -/
def Resolves (tree : Tree) (relative : String) : Prop := relative = "." ∨ Clear tree (Text.pathParts relative)

/-- The relative text that the checks work with. -/
def relativeOf (declared : String) : String :=
  if (parseDeclared declared).selected then "." else (parseDeclared declared).relative

theorem declaredDenial_eq_none : declaredDenial command scopes roots declared = none ↔
    ∃ tree, roots.find (parseDeclared declared).root = some tree ∧
      ((parseDeclared declared).selected = true ∨
        (parseDeclared declared).relative ≠ "" ∧ Text.isAbsolute (parseDeclared declared).relative = false) ∧
      (∃ scope ∈ scopes, covers (parseDeclared declared).root declared scope = true) ∧
      (relativeOf declared = "." ∨ walkDenial command tree (relativeOf declared) = none) := by
  have named : (if (parseDeclared declared).qualified then (parseDeclared declared).root ++ ":" ++ relativeOf declared
      else declared) = declared :=
    declared_name _ fun unselected => by rw [relativeOf, unselected, if_neg Bool.false_ne_true]
  rw [declaredDenial]
  cases found : roots.find (parseDeclared declared).root with
  | none =>
    refine iff_of_false ?_ (by simp)
    dsimp only
    split <;> simp
  | some tree =>
    rw [relativeOf] at named ⊢
    simp only [named, Option.some.injEq, exists_eq_left', ← List.any_eq_true]
    by_cases rooted : (((parseDeclared declared).relative == "" || Text.isAbsolute (parseDeclared declared).relative) &&
        !(parseDeclared declared).selected) = true
    · rw [if_pos rooted]
      refine iff_of_false (by simp) ?_
      rintro ⟨selected | ⟨filled, below⟩, -⟩
      · simp [selected] at rooted
      · simp [filled, below] at rooted
    · rw [if_neg rooted]
      have proper : (parseDeclared declared).selected = true ∨
          (parseDeclared declared).relative ≠ "" ∧ Text.isAbsolute (parseDeclared declared).relative = false := by
        cases selected : (parseDeclared declared).selected with
        | true => exact .inl rfl
        | false => simpa [selected] using rooted
      cases inScope : scopes.any (covers (parseDeclared declared).root declared) with
      | false => simp
      | true =>
        simp only [proper, Bool.not_true, Bool.false_eq_true, if_false, true_and, beq_iff_eq, ite_eq_left_iff]
        exact (imp_iff_or_not.trans (or_comm.trans (by rw [Decidable.not_not])))

/-- A location lies at a scope or below it. -/
def Inside (scope root : String) (parts : List String) : Prop :=
  (parseDeclared scope).root = root ∧ Text.pathParts (parseDeclared scope).relative <+: parts

/-- A scope of the kind of a declared path: a selector of its root, or no selector when the path is none. -/
def Kindred (scope declared : String) : Prop :=
  selectedRoot scope = some (parseDeclared declared).root ∨
    selectedRoot scope = none ∧ (parseDeclared declared).selected = false

/-- A text that a scope covers starts with the scope short of its slashes, and goes on at a slash if at all. -/
theorem covered_text (text : declared = Text.trimmed scope ∨ Text.hasPrefix (Text.trimmed scope ++ "/") declared = true) :
    ∃ more, declared.toList = (Text.trimmed scope).toList ++ more ∧ (more = [] ∨ ∃ rest, more = '/' :: rest) := by
  obtain same | before := text
  · exact ⟨[], by rw [same, List.append_nil], .inl rfl⟩
  · obtain ⟨rest, split⟩ := Text.hasPrefix_iff.mp before
    refine ⟨'/' :: rest, ?_, .inr ⟨rest, rfl⟩⟩
    rw [← split, String.toList_append, List.append_assoc]
    rfl

/-- No root has a slash in its name. -/
theorem slash_not_mem (found : roots.find root = some tree) : '/' ∉ root.toList := by
  obtain rfl | rfl | rfl := find_eq_some found <;> decide

/-- A scope of its kind that covers a declared path has its location inside. -/
theorem inside_of_covers (found : roots.find (parseDeclared declared).root = some tree)
    (covered : covers (parseDeclared declared).root declared scope = true) (kindred : Kindred scope declared) :
    Inside scope (parseDeclared declared).root (Text.pathParts (parseDeclared declared).relative) := by
  obtain selected | ⟨unselected, plain⟩ := kindred
  · rw [Inside, parseDeclared_selector selected]
    exact ⟨rfl, by rw [Text.pathParts_empty]; exact List.nil_prefix⟩
  · simp only [covers, unselected, Bool.or_eq_true, beq_iff_eq, reduceCtorEq, false_or] at covered
    obtain ⟨more, grown, joint⟩ := covered_text covered
    obtain ⟨count, slashes⟩ := Text.trimmed_append scope
    by_cases colon : Text.contains ':' (Text.trimmed scope) = true
    · -- Both texts split at the colon of the trimmed scope.
      obtain ⟨lead, rest, split, free⟩ := split_of_contains colon
      have here : declared.toList = lead.toList ++ ':' :: (String.ofList (rest.toList ++ more)).toList := by
        rw [grown, split, String.toList_ofList, List.append_assoc, List.cons_append]
      have there : scope.toList = lead.toList ++ ':' :: (String.ofList (rest.toList ++ List.replicate count '/')).toList := by
        rw [slashes, split, String.toList_ofList, List.append_assoc, List.cons_append]
      rw [Inside, parseDeclared_split here free, parseDeclared_split there free]
      refine ⟨rfl, ?_⟩
      rw [Text.pathParts_replicate (s := rest) String.toList_ofList]
      exact Text.pathParts_grown String.toList_ofList joint
    · have bare : Text.contains ':' scope = false := by
        rw [← Bool.not_eq_true, Text.contains, List.contains_iff_mem, slashes, List.mem_append]
        rintro (member | slash)
        · exact colon (List.contains_iff_mem.mpr member)
        · exact absurd (List.eq_of_mem_replicate slash) (by decide)
      have located : Text.contains ':' declared = false := by
        by_contra later
        obtain ⟨lead, rest, split, free⟩ := split_of_contains ((Bool.not_eq_false _).mp later)
        rw [parseDeclared_split split free] at found
        rw [Text.contains, List.contains_iff_mem] at colon
        -- A colon past the scope comes after the slash there, so the root would have one in its name.
        obtain rfl | ⟨after, rfl⟩ := joint
        · rw [List.append_nil] at grown
          exact colon (by rw [← grown, split]; simp)
        · exact slash_not_mem found (Text.mark_mem_of_two (by decide) (grown.symm.trans split) colon)
      have other : selectedRoot declared = none := by
        cases selected : selectedRoot declared with
        | none => rfl
        | some root =>
          rw [parseDeclared_selector selected] at plain
          cases plain
      rw [Inside, parseDeclared_plain bare unselected, parseDeclared_plain located other]
      refine ⟨rfl, ?_⟩
      rw [← Text.pathParts_trimmed]
      exact Text.pathParts_grown grown joint

theorem scopeDenial_eq_none {envelope : Json} : scopeDenial envelope command paths roots = none ↔
    (mutating command = true → paths ≠ []) ∧ ∀ declared ∈ paths,
      declaredDenial command (scopesOf envelope (if mutating command then "write" else "read")) roots declared = none := by
  rw [scopeDenial]
  by_cases missing : (mutating command && paths.isEmpty) = true
  · rw [if_pos missing]
    rw [Bool.and_eq_true, List.isEmpty_iff] at missing
    exact iff_of_false (by simp) fun accepted => accepted.1 missing.1 missing.2
  · rw [if_neg missing, List.findSome?_eq_none_iff]
    rw [Bool.and_eq_true, List.isEmpty_iff, not_and] at missing
    exact ⟨fun all => ⟨missing, all⟩, And.right⟩

/-- The scopes that the paths of a command have to lie in. -/
def classScopes (envelope : Json) (command : String) : List String :=
  scopesOf envelope (if mutating command then "write" else "read")

/-- What is promised of a declared path: it is spelled by its parts, leads through no link and stays inside a scope. -/
structure Unaliased (scopes : List String) (roots : Roots) (declared : String) : Prop where
  plain : (parseDeclared declared).selected = false → ∀ part ∈ Text.splitOn '/' (parseDeclared declared).relative,
    part ≠ "" ∧ part ≠ "." ∧ part ≠ ".."
  real : ∀ tree, roots.find (parseDeclared declared).root = some tree → ∀ parts, parts ≠ [] →
    parts <+: Text.pathParts (parseDeclared declared).relative → tree parts ≠ some .link
  inside : ∃ scope ∈ scopes, Inside scope (parseDeclared declared).root (Text.pathParts (parseDeclared declared).relative)

/-- The text of a declared path is its own normal form, the leaf that a changing class may leave open is neither a link
nor the parent, and a scope of its own kind covers it, unless a scope with another spelling holds it. -/
structure Straight (command : String) (scopes : List String) (roots : Roots) (declared : String) : Prop where
  spelled : (parseDeclared declared).selected = false →
    Text.joined "/" (Text.pathParts (parseDeclared declared).relative) = (parseDeclared declared).relative
  leaf : mutating command = true → Text.pathParts (parseDeclared declared).relative ≠ [] →
    (Text.pathParts (parseDeclared declared).relative).getLast? ≠ some ".." ∧
      ∀ tree, roots.find (parseDeclared declared).root = some tree →
        tree (Text.pathParts (parseDeclared declared).relative) ≠ some .link
  kindred : ∃ scope ∈ scopes, covers (parseDeclared declared).root declared scope = true ∧ Kindred scope declared ∨
    selectedRoot scope = none ∧
      Inside scope (parseDeclared declared).root (Text.pathParts (parseDeclared declared).relative)

theorem relativeOf_parts (declared : String) :
    Text.pathParts (relativeOf declared) = Text.pathParts (parseDeclared declared).relative := by
  rw [relativeOf]
  split
  · rename_i selected
    obtain colon | bare := Bool.eq_false_or_eq_true (Text.contains ':' declared)
    · obtain ⟨lead, rest, split, free⟩ := split_of_contains colon
      rw [parseDeclared_split split free] at selected
      cases selected
    · cases chosen : selectedRoot declared with
      | none =>
        rw [parseDeclared_plain bare chosen] at selected
        cases selected
      | some root =>
        rw [parseDeclared_selector chosen]
        exact (by decide : Text.pathParts "." = Text.pathParts "")
  · rfl

/-- A real entry is no link. -/
theorem Clear.no_link {parts : List String} (clear : Clear tree parts) : ∀ lead, lead ≠ [] → lead <+: parts → tree lead ≠ some .link := by
  intro lead filled before
  rw [← List.dropLast_append_getLast filled] at before ⊢
  obtain ⟨-, found | found⟩ := clear.real _ _ before <;> rw [found] <;> simp

/-- An admitted path is real all the way, or all but the leaf that a changing class may leave open. -/
theorem admitted_parts (accepted : relativeOf declared = "." ∨ walkDenial command tree (relativeOf declared) = none) :
    Text.pathParts (parseDeclared declared).relative = [] ∨ Clear tree (Text.pathParts (parseDeclared declared).relative) ∨
      mutating command = true ∧ Clear tree (Text.pathParts (parseDeclared declared).relative).dropLast := by
  rw [← relativeOf_parts]
  obtain here | walked := accepted
  · rw [here]
    exact .inl (by decide)
  · obtain clear | ⟨changes, -, clear, -⟩ := walkDenial_eq_none.mp walked
    · exact .inr (.inl clear)
    · exact .inr (.inr ⟨changes, clear⟩)

/-- An admitted location is inside some scope exactly if a scope of its kind covers it, or one with another spelling
holds it. -/
theorem inside_iff (accepted : declaredDenial command scopes roots declared = none) :
    (∃ scope ∈ scopes, Inside scope (parseDeclared declared).root (Text.pathParts (parseDeclared declared).relative)) ↔
      ∃ scope ∈ scopes, covers (parseDeclared declared).root declared scope = true ∧ Kindred scope declared ∨
        selectedRoot scope = none ∧
          Inside scope (parseDeclared declared).root (Text.pathParts (parseDeclared declared).relative) := by
  obtain ⟨tree, found, -⟩ := declaredDenial_eq_none.mp accepted
  refine exists_congr fun scope => and_congr_right fun member => ⟨fun inside => ?_, fun kindred => ?_⟩
  · cases selected : selectedRoot scope with
    | none => exact .inr ⟨rfl, inside⟩
    | some root =>
      have same : root = (parseDeclared declared).root := by
        rw [← inside.1, parseDeclared_selector selected]
      rw [same] at selected
      refine .inl ⟨?_, .inl selected⟩
      rw [covers, selected]
      simp
  · obtain ⟨covered, kin⟩ | ⟨-, inside⟩ := kindred
    · exact inside_of_covers found covered kin
    · exact inside

/-- An admitted path is what it is promised to be exactly when it is straight. -/
theorem unaliased_iff (accepted : declaredDenial command scopes roots declared = none) :
    Unaliased scopes roots declared ↔ Straight command scopes roots declared := by
  obtain ⟨tree, found, proper, -, walked⟩ := declaredDenial_eq_none.mp accepted
  constructor
  · rintro ⟨plain, real, inside⟩
    refine ⟨fun unselected => ?_, fun changes some_ => ⟨fun up => ?_, fun other _ => real other ‹_› _ some_ List.prefix_rfl⟩,
      (inside_iff accepted).mp inside⟩
    · obtain selected | ⟨filled, -⟩ := proper
      · rw [unselected] at selected
        cases selected
      · exact (Text.joined_pathParts filled).mpr fun part member => ⟨(plain unselected part member).1, (plain unselected part member).2.1⟩
    · have member := List.mem_of_getLast? up
      cases selected : (parseDeclared declared).selected with
      | false => exact (plain selected ".." (Text.mem_pathParts.mp member).1).2.2 rfl
      | true =>
        rw [← relativeOf_parts, relativeOf, if_pos selected] at member
        exact absurd member (by decide)
  · rintro ⟨spelled, leaf, kindred⟩
    have parts := admitted_parts walked
    refine ⟨fun unselected part component => ?_, fun other located => ?_, (inside_iff accepted).mpr kindred⟩
    · obtain selected | ⟨filled, -⟩ := proper
      · rw [unselected] at selected
        cases selected
      · have seen := (Text.joined_pathParts filled).mp (spelled unselected) part component
        have kept : part ∈ Text.pathParts (parseDeclared declared).relative := Text.mem_pathParts.mpr ⟨component, seen⟩
        refine ⟨seen.1, seen.2, ?_⟩
        rintro rfl
        obtain none_ | clear | ⟨changes, clear⟩ := parts
        · rw [none_] at kept
          cases kept
        · exact clear.no_parent kept
        · -- The parent could only be the leaf.
          have some_ := List.ne_nil_of_mem kept
          rw [← List.dropLast_append_getLast some_, List.mem_append, List.mem_singleton] at kept
          obtain early | last := kept
          · exact clear.no_parent early
          · exact (leaf changes some_).1 (by rw [List.getLast?_eq_getLast_of_ne_nil some_, ← last])
    · rw [found, Option.some.injEq] at located
      subst located
      intro lead filled before
      obtain none_ | clear | ⟨changes, clear⟩ := parts
      · rw [none_, List.prefix_nil] at before
        exact absurd before filled
      · exact clear.no_link lead filled before
      · by_cases whole : lead = Text.pathParts (parseDeclared declared).relative
        · rw [whole] at filled ⊢
          exact (leaf changes filled).2 tree found
        · have some_ : Text.pathParts (parseDeclared declared).relative ≠ [] := fun none_ => by
            rw [none_, List.prefix_nil] at before
            exact filled before
          rw [← List.dropLast_append_getLast some_, List.prefix_concat_iff] at before
          obtain same | early := before
          · exact absurd (same.trans (List.dropLast_append_getLast some_)) whole
          · exact clear.no_link lead filled early

/-- A product with the directory `src` that holds a file and a link. -/
def sampleProduct : Tree := fun parts =>
  if parts = ["src"] then some .directory
  else if parts = ["src", "main.py"] then some .file
  else if parts = ["src", "link"] then some .link
  else none

def sampleRoots : Roots := ⟨sampleProduct, none, none⟩

theorem sampleScope_straight :
    scopeDenial (TaskValidation.sampleEnvelope 1 4) "source-write" ["src/main.py"] sampleRoots = none ∧
      ∀ declared ∈ ["src/main.py"],
        Straight "source-write" (classScopes (TaskValidation.sampleEnvelope 1 4) "source-write") sampleRoots declared := by
  refine ⟨by decide +kernel, ?_⟩
  rw [List.forall_mem_singleton]
  exact
    { spelled := fun _ => by decide +kernel
      leaf := fun _ _ => ⟨by decide +kernel, fun tree found => by
        cases (Option.some.inj (found.symm.trans (rfl : sampleRoots.find "product" = some sampleProduct)))
        decide +kernel⟩
      kindred := ⟨"src", by decide +kernel, .inl ⟨by decide +kernel, .inr (by decide +kernel)⟩⟩ }

end Coordinator.ExecutionEnvelope
