import Coordinator.ChangeDrift
import Coordinator.Kit.Bytes
import Coordinator.Kit.Paths
import Mathlib.Data.List.Lex
import Mathlib.Data.List.Sort

/-! The NUL-separated status that Git prints for a worktree and the entries that a drift observation reads
from it. A path is its code points, the surrogates that stand for undecodable bytes included. -/

namespace Coordinator.PorcelainStatus
open Kit Kit.Bytes

abbrev Field := List UInt8
abbrev Points := List Nat

def points (s : String) : Points := s.toList.map Char.toNat

/-- The parts of a path, in which empty and single-dot components vanish. -/
def parts (path : Points) : List Points :=
  (path.splitOn (Char.toNat '/')).filter (fun part => part ≠ [] && part ≠ points ".")

def safePath (path : Points) : Bool :=
  !path.isEmpty && path.length ≤ 1024 && !path.contains 0 && path.head? != some (Char.toNat '/') &&
    !(parts path).contains (points "..")

/-- Lower case, as far as a comparison with lower-case ASCII text without a `k` tells. -/
def lower (text : Points) : Points := text.map (fun point => if 65 ≤ point && point ≤ 90 then point + 32 else point)

def generatedParts : List Points := ["build", "dist", "generated", "__generated__"].map points
def generatedSuffixes : List Points := [".generated", ".gen.py", ".pb.go", ".min.js"].map points

def generated (path : Points) : Bool :=
  let name := lower ((parts path).getLast?.getD [])
  (parts path).any (fun part => generatedParts.contains (lower part)) || generatedSuffixes.any (fun tail => tail.isSuffixOf name)

structure Entry where
  path : Points
  previousPath : Points
  status : Points
  generated : Bool
  contentDigest : String
  deriving DecidableEq

def ascii (byte : UInt8) : Bool := byte.toNat < 0x80

def hexDigits (byte : UInt8) : String :=
  String.ofList [Nat.digitChar (byte.toNat / 16), Nat.digitChar (byte.toNat % 16)]

/-- What a strict decoder of ASCII says of the first byte that it does not know. -/
def undecodable (status : Field) : Fault :=
  let position := status.findIdx (fun byte => !ascii byte)
  .error ("'ascii' codec can't decode byte 0x" ++ hexDigits (status.getD position 0) ++ " in position " ++
    toString position ++ ": ordinal not in range(128)")

/-- Either status letter says that the path was renamed or copied. -/
def renamed (field : Field) : Bool := (field.take 2).any (fun byte => byte.toNat == Char.toNat 'R' || byte.toNat == Char.toNat 'C')

def checkField (field : Field) : Outcome Unit := do
  raiseIf (field.length < 4 || field[2]? != some 32) (.error "Git returned malformed porcelain status")
  raiseIf (!(field.take 2).all ascii) (undecodable (field.take 2))

variable (digestOf : Points → Outcome String)

/-- The entry of a field and of the field with its previous path. -/
def readEntry (field source : Field) : Outcome Entry := do
  let path := decode (field.drop 3)
  let previousPath := decode source
  raiseIf (!safePath path || (!previousPath.isEmpty && !safePath previousPath))
    (.error "Git returned an unsafe changed path")
  let contentDigest ← digestOf path
  pure ⟨path, previousPath, (field.take 2).map UInt8.toNat, generated path, contentDigest⟩

/-- The entries of all fields but the last, which lies behind the last separator. -/
def readFields : List Field → Outcome (List Entry)
  | field :: next :: rest => do
      checkField field
      if renamed field then
        match rest with
        | [] => .error (.error "Git returned truncated rename status")
        | _ :: _ => do
            let entry ← readEntry digestOf field next
            let entries ← readFields rest
            pure (entry :: entries)
      else do
        let entry ← readEntry digestOf field []
        let entries ← readFields (next :: rest)
        pure (entry :: entries)
  | _ => pure []

def sortKey (entry : Entry) : List Points := [entry.path, entry.previousPath, entry.status]

def sorted (entries : List Entry) : List Entry := entries.insertionSort (fun a b => sortKey a ≤ sortKey b)

def statusEntries (raw : List UInt8) : Outcome (List Entry) := do
  let entries ← readFields digestOf (raw.splitOn 0)
  pure (sorted entries)

/-! What Git lists: a path with two status letters and, for a rename or a copy, the path that it comes from. -/

structure Listed where
  x : UInt8
  y : UInt8
  path : Field
  source : Field
  letters : ascii x = true ∧ ascii y = true ∧ x ≠ 0 ∧ y ≠ 0
  path_safe : safePath (decode path) = true
  source_safe : if renamed [x, y] = true then safePath (decode source) = true else source = []

namespace Listed

def field (listed : Listed) : Field := listed.x :: listed.y :: 32 :: listed.path

def fields (listed : Listed) : List Field :=
  if renamed [listed.x, listed.y] then [listed.field, listed.source] else [listed.field]

def entry (listed : Listed) : Outcome Entry := readEntry digestOf listed.field listed.source

end Listed

def serialise (all : List Listed) : List UInt8 := terminated 0 (all.flatMap Listed.fields)

/-- Every rename and every copy among the fields is followed by a path that it comes from. -/
def sourced : List Field → Bool
  | field :: next :: rest => if renamed field then !next.isEmpty && sourced rest else sourced (next :: rest)
  | _ => true

/-- The status is empty or ends in a separator. -/
def Closed (raw : List UInt8) : Prop := raw = [] ∨ raw.getLast? = some 0

/-! Reading back what was listed. -/

theorem safePath_free {path : Field} (safe : safePath (decode path) = true) : 0 ∉ path := by
  intro zero
  simp only [safePath, Bool.and_eq_true, Bool.not_eq_true', List.contains_eq_mem, decide_eq_false_iff_not] at safe
  exact safe.1.1.2 (zero_mem_decode zero)

theorem safePath_ne_nil {path : Field} (safe : safePath (decode path) = true) : path ≠ [] := by
  rintro rfl
  exact Bool.false_ne_true safe

namespace Listed

variable (listed : Listed)

theorem renamed_field : renamed listed.field = renamed [listed.x, listed.y] := rfl

theorem field_free : 0 ∉ listed.field := by
  intro zero
  simp only [field, List.mem_cons] at zero
  obtain first | second | space | within := zero
  · exact listed.letters.2.2.1 first.symm
  · exact listed.letters.2.2.2 second.symm
  · cases space
  · exact safePath_free listed.path_safe within

theorem fields_free : ∀ field ∈ listed.fields, 0 ∉ field := by
  intro field member
  unfold fields at member
  have from_ := listed.source_safe
  split_ifs at member from_
  · obtain rfl | member := List.mem_cons.mp member
    · exact listed.field_free
    · rw [List.mem_singleton.mp member]
      exact safePath_free from_
  · rw [List.mem_singleton.mp member]
    exact listed.field_free

theorem checkField_ok : checkField listed.field = .ok () := by
  obtain ⟨c, cs, path⟩ := List.exists_cons_of_ne_nil (safePath_ne_nil listed.path_safe)
  have long : (listed.field.length < 4 || listed.field[2]? != some 32) = false := by
    simp [field, path]
  have letters : (!(listed.field.take 2).all ascii) = false := by
    simp [field, listed.letters.1, listed.letters.2.1]
  rw [checkField, long, raiseIf_false, letters]
  rfl

end Listed

variable {digestOf}

theorem readFields_renamed {field next after : Field} {others : List Field} (moved : renamed field = true) :
    readFields digestOf (field :: next :: after :: others) = (do
      checkField field
      let entry ← readEntry digestOf field next
      let entries ← readFields digestOf (after :: others)
      pure (entry :: entries)) := by
  conv_lhs => unfold readFields
  simp only [if_pos moved]

theorem readFields_stays {field next : Field} {rest : List Field} (stays : ¬ renamed field = true) :
    readFields digestOf (field :: next :: rest) = (do
      checkField field
      let entry ← readEntry digestOf field []
      let entries ← readFields digestOf (next :: rest)
      pure (entry :: entries)) := by
  conv_lhs => unfold readFields
  simp only [if_neg stays]

theorem readFields_truncated {field next : Field} (moved : renamed field = true) :
    readFields digestOf [field, next] = (do
      checkField field
      .error (.error "Git returned truncated rename status")) := by
  conv_lhs => unfold readFields
  simp only [if_pos moved]

/-- The fields of one entry are read as that entry, whatever the rest is read as. -/
theorem readFields_listed (listed : Listed) {rest : List Field} (some_ : rest ≠ []) :
    readFields digestOf (listed.fields ++ rest) = (do
      let entry ← listed.entry digestOf
      let entries ← readFields digestOf rest
      pure (entry :: entries)) := by
  obtain ⟨next, others, rfl⟩ := List.exists_cons_of_ne_nil some_
  have from_ := listed.source_safe
  unfold Listed.fields
  split_ifs at from_ ⊢ with moved
  · rw [List.cons_append, List.singleton_append, readFields_renamed (show renamed listed.field = true from moved), Listed.checkField_ok, ok_bind, Listed.entry]
  · rw [List.singleton_append, readFields_stays (show ¬ renamed listed.field = true from moved), Listed.checkField_ok, ok_bind, Listed.entry, from_]

theorem readFields_all (all : List Listed) :
    readFields digestOf (all.flatMap Listed.fields ++ [[]]) = all.mapM (Listed.entry digestOf) := by
  induction all with
  | nil => rfl
  | cons listed others ih =>
    rw [List.flatMap_cons, List.append_assoc, readFields_listed listed (List.append_ne_nil_of_right_ne_nil _ (List.cons_ne_nil _ _)), ih,
      List.mapM_cons]

theorem splitOn_serialise (all : List Listed) : (serialise all).splitOn 0 = all.flatMap Listed.fields ++ [[]] := by
  have free : ∀ field ∈ all.flatMap Listed.fields, 0 ∉ field := by
    intro field member
    obtain ⟨listed, _, inside⟩ := List.mem_flatMap.mp member
    exact listed.fields_free field inside
  have split := splitOn_terminated free (show (0 : UInt8) ∉ [] from List.not_mem_nil)
  rwa [List.append_nil] at split

/-- A serialised list is read as its entries, sorted. -/
theorem statusEntries_serialise (all : List Listed) :
    statusEntries digestOf (serialise all) = (do
      let entries ← all.mapM (Listed.entry digestOf)
      pure (sorted entries)) := by
  rw [statusEntries, splitOn_serialise, readFields_all]

theorem sourced_listed (listed : Listed) {rest : List Field} (some_ : rest ≠ []) :
    sourced (listed.fields ++ rest) = sourced rest := by
  obtain ⟨next, others, rfl⟩ := List.exists_cons_of_ne_nil some_
  have from_ := listed.source_safe
  unfold Listed.fields
  split_ifs at from_ ⊢ with moved
  · have there : listed.source.isEmpty = false := List.isEmpty_eq_false_iff.mpr (safePath_ne_nil from_)
    rw [List.cons_append, List.singleton_append, sourced, Listed.renamed_field, if_pos moved, there, Bool.not_false, Bool.true_and]
  · rw [List.singleton_append, sourced, Listed.renamed_field, if_neg moved]

theorem sourced_all (all : List Listed) : sourced (all.flatMap Listed.fields ++ [[]]) = true := by
  induction all with
  | nil => rfl
  | cons listed others ih =>
    rw [List.flatMap_cons, List.append_assoc, sourced_listed listed (List.append_ne_nil_of_right_ne_nil _ (List.cons_ne_nil _ _)), ih]

/-- What is read of an entry is all that was listed of it. -/
theorem entry_exact {listed : Listed} {entry : Entry} (read : listed.entry digestOf = .ok entry) :
    entry.status = [listed.x.toNat, listed.y.toNat] ∧ encode entry.path = listed.path ∧
      encode entry.previousPath = listed.source := by
  simp only [Listed.entry, readEntry, bind_eq_ok, pure_eq_ok] at read
  obtain ⟨_, _, _, _, rfl⟩ := read
  exact ⟨rfl, encode_decode _, encode_decode _⟩

theorem sorted_perm (entries : List Entry) : (sorted entries).Perm entries := List.perm_insertionSort _ _

theorem sorted_pairwise (entries : List Entry) : (sorted entries).Pairwise (fun a b => sortKey a ≤ sortKey b) :=
  List.pairwise_insertionSort _ _

/-! Every field list that is read and whose renames have a source is that of a list of entries. -/

theorem checkField_cases {field : Field} (free : 0 ∉ field) (checked : checkField field = .ok ()) :
    ∃ x y path, field = x :: y :: 32 :: path ∧ ascii x = true ∧ ascii y = true ∧ x ≠ 0 ∧ y ≠ 0 := by
  rw [checkField, raiseIf_bind_ok, raiseIf_eq_ok, Bool.or_eq_false_iff, decide_eq_false_iff_not, Bool.not_eq_false'] at checked
  obtain ⟨⟨long, space⟩, letters⟩ := checked
  match field, long with
  | x :: y :: blank :: path, _ =>
    rw [bne_eq_false_iff_eq] at space
    cases space
    simp only [List.take_succ_cons, List.take_zero, List.all_cons, List.all_nil, Bool.and_true, Bool.and_eq_true] at letters
    refine ⟨x, y, path, rfl, letters.1, letters.2, ?_, ?_⟩
    · rintro rfl
      exact free List.mem_cons_self
    · rintro rfl
      exact free (List.mem_cons_of_mem _ List.mem_cons_self)

theorem readEntry_safe {field source : Field} {entry : Entry} (read : readEntry digestOf field source = .ok entry) :
    safePath (decode (field.drop 3)) = true ∧ (source ≠ [] → safePath (decode source) = true) := by
  simp only [readEntry, raiseIf_bind_ok, Bool.or_eq_false_iff, Bool.and_eq_false_iff, Bool.not_eq_eq_eq_not,
    Bool.not_false, List.isEmpty_iff, decode_eq_nil] at read
  obtain ⟨⟨path, previous⟩, _⟩ := read
  refine ⟨path, fun some_ => ?_⟩
  simpa [some_, decode_eq_nil] using previous

theorem listed_of_readFields {fields : List Field} : ∀ {entries : List Entry}, fields ≠ [] → (∀ field ∈ fields, 0 ∉ field) →
    readFields digestOf fields = .ok entries → sourced fields = true →
    ∃ all : List Listed, ∃ last : Field, fields = all.flatMap Listed.fields ++ [last] := by
  induction fields using sourced.induct with
  | case1 field next rest moved ih =>
    intro entries _ free read from_
    rw [sourced, if_pos moved, Bool.and_eq_true] at from_
    match rest with
    | [] =>
      rw [readFields_truncated moved, bind_eq_ok] at read
      obtain ⟨_, _, raised⟩ := read
      cases raised
    | after :: others =>
      simp only [readFields_renamed moved, bind_eq_ok] at read
      obtain ⟨_, checked, entry, first, later, read, _⟩ := read
      obtain ⟨x, y, path, rfl, letters⟩ := checkField_cases (free _ List.mem_cons_self) checked
      obtain ⟨safe, source⟩ := readEntry_safe first
      have named : next ≠ [] := by
        rintro rfl
        exact Bool.false_ne_true from_.1
      have behind : ∀ field ∈ after :: others, 0 ∉ field := fun field member =>
        free field (List.mem_cons_of_mem _ (List.mem_cons_of_mem _ member))
      obtain ⟨all, last, same⟩ := ih (List.cons_ne_nil _ _) behind read from_.2
      have moved' : renamed [x, y] = true := moved
      refine ⟨⟨x, y, path, next, letters, safe, by rw [if_pos moved']; exact source named⟩ :: all, last, ?_⟩
      rw [List.flatMap_cons, List.append_assoc, ← same, Listed.fields, if_pos moved']
      rfl
  | case2 field next rest stays ih =>
    intro entries _ free read from_
    rw [sourced, if_neg stays] at from_
    simp only [readFields_stays stays, bind_eq_ok] at read
    obtain ⟨_, checked, entry, first, later, read, _⟩ := read
    obtain ⟨x, y, path, rfl, letters⟩ := checkField_cases (free _ List.mem_cons_self) checked
    have behind : ∀ field ∈ next :: rest, 0 ∉ field := fun field member => free field (List.mem_cons_of_mem _ member)
    obtain ⟨all, last, same⟩ := ih (List.cons_ne_nil _ _) behind read from_
    have stays' : ¬ renamed [x, y] = true := stays
    refine ⟨⟨x, y, path, [], letters, (readEntry_safe first).1, by rw [if_neg stays']⟩ :: all, last, ?_⟩
    rw [List.flatMap_cons, List.append_assoc, ← same, Listed.fields, if_neg stays']
    rfl
  | case3 fields short =>
    intro entries some_ _ _ _
    match fields, some_ with
    | [last], _ => exact ⟨[], last, rfl⟩
    | field :: next :: rest, _ => exact absurd rfl (short field next rest)

theorem closed_serialise (all : List Listed) : Closed (serialise all) := getLast?_terminated _

/-- Nothing stands behind the last separator of a closed status. -/
theorem last_eq_nil {fields : List Field} {last : Field} (free : 0 ∉ last) (closed : Closed (terminated 0 fields ++ last)) :
    last = [] := by
  by_contra some_
  obtain empty | ends := closed
  · exact some_ (List.append_eq_nil_iff.mp empty).2
  · rw [List.getLast?_append_of_ne_nil _ some_] at ends
    exact free (List.mem_of_getLast? ends)

/-- An untracked file. -/
def untracked (path : Field) (safe : safePath (decode path) = true) : Listed :=
  ⟨63, 63, path, [], by decide, safe, rfl⟩

end Coordinator.PorcelainStatus
