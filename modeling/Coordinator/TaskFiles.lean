import Coordinator.Kit.FileTree
import Coordinator.Kit.Guard
import Coordinator.Kit.JsonText

/-! Task files: the metadata of a task as front matter before its body. -/

namespace Coordinator.TaskFiles
open Kit Json JsonText

/-! Text files. -/

/-- What is before and behind the first place of a mark. -/
def partition (mark : List Char) : List Char → Option (List Char × List Char)
  | [] => (Text.stripPrefix? mark []).map (fun behind => ([], behind))
  | c :: rest =>
      match Text.stripPrefix? mark (c :: rest) with
      | some behind => some ([], behind)
      | none => (partition mark rest).map (fun found => (c :: found.1, found.2))

theorem stripPrefix_append (lead rest : List Char) : Text.stripPrefix? lead (lead ++ rest) = some rest := by
  induction lead with
  | nil => rfl
  | cons c lead ih => rw [List.cons_append, Text.stripPrefix?, if_pos rfl, ih]

theorem partition_mark (mark behind : List Char) : partition mark (mark ++ behind) = some ([], behind) := by
  have here := stripPrefix_append mark behind
  cases spelled : mark ++ behind with
  | nil =>
    rw [spelled] at here
    rw [partition, here]
    rfl
  | cons c rest =>
    rw [spelled] at here
    rw [partition, here]

abbrev Files := String → Option (List Char)

inductive Fault where
  | missing (path : String)
  | value (message : String)
  | undecodable
  deriving DecidableEq

/-- The text of a file. -/
def readText (files : Files) (path : String) : Except Fault (List Char) :=
  (orRaise (files path) (.missing path)).map uniformLines

/-- The file replaced by one with the text. -/
def atomic (files : Files) (path : String) (text : List Char) : Files := fun other => if other = path then some text else files other

/-! Reading and writing a task. -/

variable (shortest : Shortest)

def opening : List Char := ['-', '-', '-', '\n']

def closing : List Char := ['\n', '-', '-', '-', '\n']

def readTask (files : Files) (path : String) : Except Fault (Json × List Char) := do
  let text ← readText files path
  let behind ← orRaise (Text.stripPrefix? opening text) (.value (path ++ ": no front matter"))
  let (front, body) ← orRaise (partition closing behind) (.value (path ++ ": unterminated front matter"))
  let metadata ← orRaise (loads shortest front) .undecodable
  pure (metadata, body)

def writeTask (files : Files) (path : String) (metadata : Dict) (body : List Char) : Files :=
  atomic files path (opening ++ dumps indented (.obj metadata) ++ closing ++ body)

variable {shortest}

/-- The front matter ends at the first mark, since no line of the metadata begins with a dash. -/
theorem partition_hanging {text : List Char} (hanging : Hanging text) (body : List Char) :
    partition closing (text ++ closing ++ body) = some (text, body) := by
  have inner := hanging.inner
  clear hanging
  induction text with
  | nil => exact partition_mark closing body
  | cons c rest ih =>
    have next := ih fun before behind spelled => inner (c :: before) behind (by rw [spelled]; rfl)
    have none_ : Text.stripPrefix? closing (c :: rest ++ closing ++ body) = none := by
      by_cases feed : c = '\n'
      · subst feed
        obtain ⟨d, others, rfl, other⟩ := inner [] rest rfl
        simp [closing, Text.stripPrefix?, Ne.symm other]
      · simp [closing, Text.stripPrefix?, Ne.symm feed]
    rw [List.cons_append, List.cons_append] at none_ ⊢
    rw [partition, none_, next]
    rfl

theorem readText_atomic (files : Files) (path : String) {text : List Char} (plain : '\r' ∉ text) :
    readText (atomic files path text) path = .ok text := by
  rw [readText, atomic, if_pos rfl]
  exact congrArg Except.ok (uniformLines_of_no_return plain)

/-- A task that was written is read back: the same metadata, and the body as it was. -/
theorem read_written (files : Files) (path : String) {metadata : Dict} {body : List Char} (regular : Regular shortest (.obj metadata))
    (plain : '\r' ∉ body) :
    ∃ found, readTask shortest (writeTask files path metadata body) path = .ok (found, body) ∧ Same found (.obj metadata) := by
  have hanging := hanging_pretty (sortKeys (.obj metadata)) 0
  have whole : '\r' ∉ opening ++ dumps indented (.obj metadata) ++ closing ++ body := by
    simp only [List.mem_append, not_or]
    refine ⟨⟨⟨by decide, fun return_ => ?_⟩, by decide⟩, plain⟩
    obtain printed | feed := hanging.plain '\r' return_
    · cases printed
    · cases feed
  have split := partition_hanging hanging body
  refine ⟨sortKeys (.obj metadata), ?_, same_sortKeys _⟩
  rw [readTask, writeTask, readText_atomic files path whole]
  simp only [ok_bind, List.append_assoc, stripPrefix_append]
  rw [List.append_assoc] at split
  change orRaise (partition closing (pretty indented 0 (sortKeys (.obj metadata)) ++ (closing ++ body))) _ >>= _ = _
  rw [split]
  change orRaise (loads shortest (dumps indented (.obj metadata))) _ >>= _ = _
  rw [loads_dumps indented regular]
  rfl

/-- However many zeros are behind it, one and a half is printed without them. -/
def trimmed (mantissa exponent : Int) : Int × Int := if mantissa = 15 * 10 ^ (-1 - exponent).toNat then (15, -1) else (mantissa, exponent)

theorem read_written_delimiters : ∃ found, readTask trimmed (writeTask (fun _ => none) "AR-1.md"
      [("title", .str "---\n"), ("estimate", .float 15 (-1)), ("id", .str "AR-1")] "\n---\n\n".toList) "AR-1.md" =
    .ok (found, "\n---\n\n".toList) ∧
      Same found (.obj [("title", .str "---\n"), ("estimate", .float 15 (-1)), ("id", .str "AR-1")]) := by
  refine read_written _ _ ⟨by decide, trivial, ⟨fun zeros => ?_, fun zero => ?_⟩, trivial, trivial⟩ (by decide)
  · have count : (-1 - (-1 - (zeros : Int))).toNat = zeros := by omega
    rw [trimmed, count, if_pos rfl]
  · cases zero

end Coordinator.TaskFiles
