import Coordinator.Kit.JsonText

/-! Documents up to the order of the members of their objects: what sorting the keys keeps, and that comparisons do not see the order. -/

namespace Coordinator.Kit.JsonText
open Json

/-! Lookups. -/

theorem find_of_mem {fields : Dict} {entry : String × Json} (distinct : (Dict.keys fields).Nodup) (member : entry ∈ fields) :
    Dict.find entry.1 fields = some entry.2 := by
  induction fields with
  | nil => cases member
  | cons first rest ih =>
    obtain ⟨fresh, others⟩ := List.nodup_cons.mp distinct
    obtain rfl | inside := List.mem_cons.mp member
    · exact if_pos rfl
    · have other : first.1 ≠ entry.1 := by
        intro same
        apply fresh
        rw [same]
        exact List.mem_map_of_mem inside
      rw [Dict.find, if_neg other]
      exact ih others inside

theorem find_eq_some_iff {fields : Dict} {key : String} {value : Json} (distinct : (Dict.keys fields).Nodup) :
    Dict.find key fields = some value ↔ (key, value) ∈ fields :=
  ⟨Dict.mem_of_find, fun member => find_of_mem distinct member⟩

/-- The order of the members is nothing to a lookup. -/
theorem find_perm {fields moved : Dict} (distinct : (Dict.keys fields).Nodup) (perm : fields.Perm moved) (key : String) :
    Dict.find key moved = Dict.find key fields := by
  have others : (Dict.keys moved).Nodup := (perm.map Prod.fst).nodup_iff.mp distinct
  apply Option.ext
  intro value
  rw [find_eq_some_iff others, find_eq_some_iff distinct, perm.mem_iff]

theorem find_sortMembers (fields : Dict) (key : String) :
    Dict.find key (sortMembers fields) = (Dict.find key fields).map sortKeys := by
  induction fields with
  | nil => rfl
  | cons entry rest ih =>
    obtain ⟨name, value⟩ := entry
    rw [sortMembers, Dict.find, Dict.find, ih]
    by_cases same : name = key
    · rw [if_pos same, if_pos same]
      rfl
    · rw [if_neg same, if_neg same]

theorem find_sorted {fields : Dict} (distinct : (Dict.keys fields).Nodup) (key : String) :
    Dict.find key ((sortMembers fields).insertionSort fun a b => a.1 ≤ b.1) = (Dict.find key fields).map sortKeys := by
  have keys : (Dict.keys (sortMembers fields)).Nodup := by rwa [keys_sortMembers]
  rw [find_perm keys (List.perm_insertionSort _ _).symm, find_sortMembers]

theorem get_sortKeys {fields : Dict} (distinct : (Dict.keys fields).Nodup) (key : String) :
    (sortKeys (.obj fields)).get key = sortKeys ((Json.obj fields).get key) := by
  change (Dict.find key ((sortMembers fields).insertionSort fun a b => a.1 ≤ b.1)).getD .null = sortKeys ((Dict.find key fields).getD .null)
  rw [find_sorted distinct]
  cases Dict.find key fields <;> rfl

theorem has_sortKeys {fields : Dict} (distinct : (Dict.keys fields).Nodup) (key : String) :
    (sortKeys (.obj fields)).has key = (Json.obj fields).has key := by
  change (Dict.find key ((sortMembers fields).insertionSort fun a b => a.1 ≤ b.1)).isSome = (Dict.find key fields).isSome
  rw [find_sorted distinct, Option.isSome_map]

/-! Sorted documents. -/

theorem sorted_members (fields : List (String × Json)) : (fields.insertionSort fun a b => a.1 ≤ b.1).Pairwise fun a b => a.1 ≤ b.1 :=
  List.pairwise_insertionSort _ _

mutual

/-- Sorting again changes nothing. -/
theorem sortKeys_sortKeys : ∀ found : Json, sortKeys (sortKeys found) = sortKeys found
  | .null => rfl
  | .bool _ => rfl
  | .int _ => rfl
  | .float _ _ => rfl
  | .str _ => rfl
  | .arr items => by
    rw [sortKeys, sortKeys, sortItems_eq, sortItems_eq, List.map_map]
    exact congrArg Json.arr (List.map_congr_left (sortKeys_items items))
  | .obj fields => by
    have same : sortMembers ((sortMembers fields).insertionSort fun a b => a.1 ≤ b.1) =
        (sortMembers fields).insertionSort fun a b => a.1 ≤ b.1 := by
      rw [sortMembers_eq ((sortMembers fields).insertionSort _)]
      refine (List.map_congr_left fun entry member => ?_).trans (List.map_id _)
      rw [List.mem_insertionSort, sortMembers_eq] at member
      obtain ⟨origin, inside, rfl⟩ := List.mem_map.mp member
      exact Prod.ext rfl (sortKeys_members fields origin inside)
    rw [sortKeys, sortKeys, same, (sorted_members _).insertionSort_eq]

theorem sortKeys_items : ∀ (items : List Json), ∀ item ∈ items, sortKeys (sortKeys item) = sortKeys item
  | [], _, never => by cases never
  | first :: others, item, member => by
    obtain same | inside := List.mem_cons.mp member
    · rw [same]
      exact sortKeys_sortKeys first
    · exact sortKeys_items others item inside

theorem sortKeys_members : ∀ (fields : List (String × Json)), ∀ entry ∈ fields, sortKeys (sortKeys entry.2) = sortKeys entry.2
  | [], _, never => by cases never
  | (key, first) :: others, entry, member => by
    obtain same | inside := List.mem_cons.mp member
    · rw [same]
      exact sortKeys_sortKeys first
    · exact sortKeys_members others entry inside

end

/-- Members of distinct names have one sorted order. -/
theorem sorted_perm {first second : Dict} (distinct : (Dict.keys first).Nodup) (perm : first.Perm second) :
    (first.insertionSort fun a b => a.1 ≤ b.1) = second.insertionSort fun a b => a.1 ≤ b.1 := by
  have moved : (first.insertionSort fun a b => a.1 ≤ b.1).Perm (second.insertionSort fun a b => a.1 ≤ b.1) :=
    ((List.perm_insertionSort _ _).trans perm).trans (List.perm_insertionSort _ _).symm
  apply List.Perm.eq_of_pairwise _ (sorted_members _) (sorted_members _) moved
  intro a b inside outside below above
  have key : a.1 = b.1 := String.le_antisymm below above
  have here := find_of_mem distinct ((List.perm_insertionSort _ _).mem_iff.mp inside)
  have there := find_of_mem distinct (perm.mem_iff.mpr ((List.perm_insertionSort _ _).mem_iff.mp outside))
  rw [key, there] at here
  exact Prod.ext key (Option.some.inj here).symm

/-- Two objects with the same members, but for their order and the order inside them, are the same when sorted. -/
theorem sortKeys_ext {first second : Dict} (distinct : (Dict.keys first).Nodup) (others : (Dict.keys second).Nodup)
    (same : ∀ key, (Dict.find key first).map sortKeys = (Dict.find key second).map sortKeys) :
    sortKeys (.obj first) = sortKeys (.obj second) := by
  have left : (Dict.keys (sortMembers first)).Nodup := by rwa [keys_sortMembers]
  have right : (Dict.keys (sortMembers second)).Nodup := by rwa [keys_sortMembers]
  have members : ∀ entry, entry ∈ sortMembers first ↔ entry ∈ sortMembers second := by
    intro entry
    rw [← find_eq_some_iff left, ← find_eq_some_iff right, find_sortMembers, find_sortMembers, same]
  have perm : (sortMembers first).Perm (sortMembers second) :=
    (List.perm_ext_iff_of_nodup (List.Nodup.of_map _ left) (List.Nodup.of_map _ right)).mpr members
  rw [sortKeys, sortKeys, sorted_perm left perm]

/-! Comparisons. -/

theorem eqFields_all (fields other : List (String × Json)) :
    eqFields fields other = fields.all (fun entry => (Dict.find entry.1 other).any (fun found => eq entry.2 found)) := by
  induction fields with
  | nil => rfl
  | cons entry rest ih =>
    obtain ⟨key, value⟩ := entry
    rw [eqFields, ih, List.all_cons]
    dsimp only
    cases Dict.find key other <;> rfl

mutual

/-- Equality of values does not see the order of members. -/
theorem eq_sortKeys : ∀ found other : Json, eq (sortKeys found) other = eq found other
  | .null, _ => rfl
  | .bool _, _ => rfl
  | .int _, _ => rfl
  | .float _ _, _ => rfl
  | .str _, _ => rfl
  | .arr items, other => by
    cases other with
    | arr others => rw [sortKeys, eq, eq, eqItems_sortItems items others]
    | _ => simp [sortKeys, eq]
  | .obj fields, other => by
    cases other with
    | obj others =>
      have length : ((sortMembers fields).insertionSort fun a b => a.1 ≤ b.1).length = fields.length := by
        rw [List.length_insertionSort, sortMembers_eq, List.length_map]
      rw [sortKeys, eq, eq, length, eqFields_all ((sortMembers fields).insertionSort _), (List.perm_insertionSort _ _).all_eq,
        ← eqFields_all, eqFields_sortMembers fields others]
    | _ => simp [sortKeys, eq]

theorem eqItems_sortItems : ∀ items others : List Json, eqItems (sortItems items) others = eqItems items others
  | [], _ => rfl
  | first :: rest, [] => by simp [sortItems, eqItems]
  | first :: rest, second :: others => by
    rw [sortItems, eqItems, eqItems, eq_sortKeys first second, eqItems_sortItems rest others]

theorem eqFields_sortMembers : ∀ fields others : List (String × Json), eqFields (sortMembers fields) others = eqFields fields others
  | [], _ => rfl
  | (key, first) :: rest, others => by
    rw [sortMembers, eqFields, eqFields, eqFields_sortMembers rest others]
    cases Dict.find key others with
    | none => rfl
    | some found =>
      dsimp only
      rw [eq_sortKeys first found]

end

theorem sortKeys_beq (found other : Json) : (sortKeys found == other) = (found == other) := eq_sortKeys found other

variable {shortest : Shortest}

mutual

theorem eq_sortKeys_right : ∀ found other : Json, Regular shortest other → eq found (sortKeys other) = eq found other
  | _, .null, _ => rfl
  | _, .bool _, _ => rfl
  | _, .int _, _ => rfl
  | _, .float _ _, _ => rfl
  | _, .str _, _ => rfl
  | found, .arr others, regular => by
    cases found with
    | arr items => rw [sortKeys, eq, eq, eqItems_right items others regular]
    | _ => simp [sortKeys, eq]
  | found, .obj others, regular => by
    cases found with
    | obj fields =>
      have length : ((sortMembers others).insertionSort fun a b => a.1 ≤ b.1).length = others.length := by
        rw [List.length_insertionSort, sortMembers_eq, List.length_map]
      rw [sortKeys, eq, eq, length, eqFields_right fields others regular]
    | _ => simp [sortKeys, eq]

theorem eqItems_right : ∀ items others : List Json, RegularItems shortest others → eqItems items (sortItems others) = eqItems items others
  | [], [], _ => rfl
  | [], _ :: _, _ => by simp [sortItems, eqItems]
  | _ :: _, [], _ => rfl
  | first :: rest, second :: others, regular => by
    rw [sortItems, eqItems, eqItems, eq_sortKeys_right first second regular.1, eqItems_right rest others regular.2]

theorem eqFields_right : ∀ (fields others : List (String × Json)), Regular shortest (.obj others) →
    eqFields fields ((sortMembers others).insertionSort fun a b => a.1 ≤ b.1) = eqFields fields others
  | [], _, _ => rfl
  | (key, first) :: rest, others, regular => by
    rw [eqFields, eqFields, eqFields_right rest others regular, find_sorted regular.1]
    cases found : Dict.find key others with
    | none => rfl
    | some value =>
      rw [Option.map_some]
      dsimp only
      rw [eq_sortKeys_right first value (regularMembers_iff.mp regular.2 (key, value) (Dict.mem_of_find found))]

end

theorem beq_sortKeys {other : Json} (regular : Regular shortest other) (found : Json) : (found == sortKeys other) = (found == other) :=
  eq_sortKeys_right found other regular

/-! What sorting leaves as it is. -/

@[simp] theorem isStr_sortKeys (found : Json) : (sortKeys found).isStr = found.isStr := by cases found <;> rfl

@[simp] theorem isObj_sortKeys (found : Json) : (sortKeys found).isObj = found.isObj := by cases found <;> rfl

@[simp] theorem text_sortKeys (found : Json) : (sortKeys found).text = found.text := by cases found <;> rfl

theorem hasExactly_sortKeys {found : Json} (regular : Regular shortest found) (names : List String) :
    (sortKeys found).hasExactly names = found.hasExactly names := by
  cases found with
  | obj fields =>
    have keys : (Dict.keys ((sortMembers fields).insertionSort fun a b => a.1 ≤ b.1)).Perm (Dict.keys fields) := by
      rw [← keys_sortMembers fields]
      exact (List.perm_insertionSort _ _).map Prod.fst
    have present : (sortKeys (.obj fields)).has = (Json.obj fields).has := funext (has_sortKeys regular.1)
    rw [hasExactly, hasExactly, present, isObj_sortKeys]
    exact congrArg _ keys.all_eq
  | _ => rfl

/-- The order of the members is nothing to what is looked up. -/
theorem get_sorted {found : Json} (regular : Regular shortest found) (key : String) : (sortKeys found).get key = sortKeys (found.get key) := by
  cases found with
  | obj fields => exact get_sortKeys regular.1 key
  | _ => rfl

theorem regular_get {found : Json} (regular : Regular shortest found) (key : String) : Regular shortest (found.get key) := by
  cases found with
  | obj fields =>
    change Regular shortest ((Dict.find key fields).getD .null)
    cases inside : Dict.find key fields with
    | none => trivial
    | some value => exact regularMembers_iff.mp regular.2 (key, value) (Dict.mem_of_find inside)
  | _ => trivial

/-- An object with exactly some keys has what it has under them. -/
theorem find_of_exact {entries : Dict} {names : List String} (exactly : (Json.obj entries).hasExactly names = true) (key : String) :
    Dict.find key entries = if key ∈ names then some (Dict.get entries key) else none := by
  simp only [hasExactly, Bool.and_eq_true, List.all_eq_true, List.contains_iff_mem] at exactly
  obtain ⟨⟨-, present⟩, listed⟩ := exactly
  by_cases known : key ∈ names
  · obtain ⟨value, found⟩ := Option.isSome_iff_exists.mp (show (Dict.find key entries).isSome = true from present key known)
    rw [if_pos known, Dict.get, found, Option.getD_some]
  · rw [if_neg known]
    cases found : Dict.find key entries with
    | none => rfl
    | some value =>
      have key_ : key ∈ Dict.keys entries := List.mem_map_of_mem (Dict.mem_of_find found)
      exact absurd (listed key key_) known

end Coordinator.Kit.JsonText
