import Coordinator.Kit.Json
import Mathlib.Algebra.BigOperators.Group.List.Basic
import Mathlib.Data.List.Infix

/-! Text as a program handles it that checks names against bounded patterns, wraps
paragraphs and serializes JSON. Patterns work on lists of characters. -/

namespace Coordinator.Kit

namespace Text

/-- The characters of a text, read off its bytes as long as these are ASCII; evaluation by the kernel can afford that. -/
def characters (s : String) : List Char :=
  let bytes := s.toByteArray.data.toList
  if bytes.all (fun b => b.toNat < 128) then bytes.map (fun b => Char.ofNat b.toNat) else s.toList

theorem map_ascii {cs : List Char} (ascii : (cs.flatMap String.utf8EncodeChar).all (fun b => b.toNat < 128) = true) :
    (cs.flatMap String.utf8EncodeChar).map (fun b => Char.ofNat b.toNat) = cs := by
  induction cs with
  | nil => rfl
  | cons c cs ih =>
    rw [List.flatMap_cons, List.all_append, Bool.and_eq_true] at ascii
    rw [List.flatMap_cons, List.map_append, ih ascii.2]
    have first := ascii.1
    unfold String.utf8EncodeChar at first ⊢
    by_cases low : c.val.toNat ≤ 0x7f
    · have whole : c.toNat % 256 = c.toNat := Nat.mod_eq_of_lt (Nat.lt_of_le_of_lt low (by decide))
      rw [if_pos low]
      simp [whole]
    · -- the first byte of a longer encoding is no ASCII
      rw [if_neg low] at first
      split_ifs at first <;> simp at first <;> omega

@[simp] theorem characters_eq (s : String) : characters s = s.toList := by
  have bytes : s.toByteArray.data.toList = s.toList.flatMap String.utf8EncodeChar := by
    rw [← String.utf8Encode_toList, List.utf8Encode, List.toList_data_toByteArray]
  rw [characters, bytes]
  split
  · next ascii => exact map_ascii ascii
  · rfl

instance (priority := high) decidableLe (s t : String) : Decidable (s ≤ t) :=
  @decidable_of_iff _ (¬ characters t < characters s) (by rw [characters_eq, characters_eq]; rfl)
    (@instDecidableNot _ (List.decidableLT _ _))

def isDigit (c : Char) : Bool := '0' ≤ c && c ≤ '9'
def isLower (c : Char) : Bool := 'a' ≤ c && c ≤ 'z'
def isUpper (c : Char) : Bool := 'A' ≤ c && c ≤ 'Z'
def isAlnum (c : Char) : Bool := isDigit c || isLower c || isUpper c
def isHex (c : Char) : Bool := isDigit c || ('a' ≤ c && c ≤ 'f')

/-- The zeros of the decimal digit runs of Unicode; each run has ten code points. -/
def decimalZeros : List Nat :=
  [0x30, 0x660, 0x6f0, 0x7c0, 0x966, 0x9e6, 0xa66, 0xae6, 0xb66, 0xbe6, 0xc66, 0xce6, 0xd66, 0xde6,
    0xe50, 0xed0, 0xf20, 0x1040, 0x1090, 0x17e0, 0x1810, 0x1946, 0x19d0, 0x1a80, 0x1a90, 0x1b50,
    0x1bb0, 0x1c40, 0x1c50, 0xa620, 0xa8d0, 0xa900, 0xa9d0, 0xa9f0, 0xaa50, 0xabf0, 0xff10, 0x104a0,
    0x10d30, 0x11066, 0x110f0, 0x11136, 0x111d0, 0x112f0, 0x11450, 0x114d0, 0x11650, 0x116c0, 0x11730,
    0x118e0, 0x11950, 0x11c50, 0x11d50, 0x11da0, 0x11f50, 0x16a60, 0x16ac0, 0x16b50, 0x1d7ce, 0x1d7d8,
    0x1d7e2, 0x1d7ec, 0x1d7f6, 0x1e140, 0x1e2f0, 0x1e4f0, 0x1e950, 0x1fbf0]

/-- The digit class of a pattern over Unicode text. -/
def isDecimal (c : Char) : Bool := decimalZeros.any (fun first => first ≤ c.toNat && c.toNat < first + 10)

/-- The characters that stripping removes. -/
def isSpace (c : Char) : Bool :=
  let n := c.toNat
  (9 ≤ n && n ≤ 13) || (28 ≤ n && n ≤ 32) || n == 0x85 || n == 0xa0 || n == 0x1680 ||
    (0x2000 ≤ n && n ≤ 0x200a) || n == 0x2028 || n == 0x2029 || n == 0x202f || n == 0x205f || n == 0x3000

def strip (s : String) : String :=
  String.ofList (((s.toList.dropWhile isSpace).reverse.dropWhile isSpace).reverse)

/-- Stripping leaves nothing. -/
def isBlank (s : String) : Bool := (characters s).all isSpace

/-- The maximal runs of characters that stripping keeps. -/
def words (s : String) : List (List Char) := ((characters s).splitOnP isSpace).filter (fun word => !word.isEmpty)

def stripPrefix? : List Char → List Char → Option (List Char)
  | [], rest => some rest
  | _ :: _, [] => none
  | p :: ps, c :: cs => if p = c then stripPrefix? ps cs else none

def hasPrefix (lead s : String) : Bool := (stripPrefix? (characters lead) (characters s)).isSome

def hasSuffix (tail s : String) : Bool := (stripPrefix? tail.toList.reverse s.toList.reverse).isSome

/-- `count` characters of one class and nothing else. -/
def exactly (count : Nat) (p : Char → Bool) (cs : List Char) : Bool := cs.length == count && cs.all p

/-- One character of the first class, then between `low` and `high` of the second. -/
def shape (first rest : Char → Bool) (low high : Nat) (s : String) : Bool :=
  match characters s with
  | [] => false
  | c :: cs => first c && cs.all rest && low ≤ cs.length && cs.length ≤ high

def hexText (count : Nat) (s : String) : Bool := exactly count isHex (characters s)

/-- `sha256:` and sixty-four lower-case hexadecimal digits. -/
def isDigest (s : String) : Bool :=
  match stripPrefix? (characters "sha256:") (characters s) with
  | some rest => exactly 64 isHex rest
  | none => false

/-- Words of lower-case letters joined by single hyphens. -/
def isHyphenated (s : String) : Bool :=
  ((characters s).splitOn '-').all (fun word => !word.isEmpty && word.all isLower)

def contains (c : Char) (s : String) : Bool := s.toList.contains c

def splitOn (separator : Char) (s : String) : List String :=
  (s.toList.splitOn separator).map String.ofList

/-- The parts of a relative path, in which empty and single-dot components vanish. -/
def pathParts (s : String) : List String :=
  (splitOn '/' s).filter (fun part => part ≠ "" && part ≠ ".")

def isAbsolute (s : String) : Bool := hasPrefix "/" s

def joined (separator : String) (parts : List String) : String := separator.intercalate parts

/-- One text occurs in another. -/
def occursIn (part s : String) : Bool := s.toList.tails.any (fun rest => (stripPrefix? part.toList rest).isSome)

/-- The characters that end a line. -/
def isLineEnd (c : Char) : Bool :=
  let n := c.toNat
  (10 ≤ n && n ≤ 13) || (28 ≤ n && n ≤ 30) || n == 0x85 || n == 0x2028 || n == 0x2029

/-- The lines of a text; the characters of the line so far come in reverse. -/
def linesFrom : List Char → List Char → List String
  | [], line => if line.isEmpty then [] else [String.ofList line.reverse]
  | '\r' :: '\n' :: rest, line => String.ofList line.reverse :: linesFrom rest []
  | c :: rest, line => if isLineEnd c then String.ofList line.reverse :: linesFrom rest [] else linesFrom rest (c :: line)

def splitlines (s : String) : List String := linesFrom s.toList []

theorem stripPrefix?_append (lead rest : List Char) : stripPrefix? lead (lead ++ rest) = some rest := by
  induction lead with
  | nil => rfl
  | cons c cs ih => simp [stripPrefix?, ih]

theorem occursIn_of_infix {part s : String} (inside : part.toList <:+: s.toList) : occursIn part s = true := by
  obtain ⟨before, after, split⟩ := inside
  rw [occursIn, List.any_eq_true]
  refine ⟨part.toList ++ after, ?_, ?_⟩
  · rw [List.mem_tails]
    exact ⟨before, by rw [← split, List.append_assoc]⟩
  · rw [stripPrefix?_append]
    rfl

/-- A line is a part of the text, together with the line that was begun before it. -/
theorem infix_of_mem_linesFrom {cs line : List Char} {part : String} (member : part ∈ linesFrom cs line) :
    part.toList <:+: line.reverse ++ cs := by
  fun_induction linesFrom cs line with
  | case1 line => cases member
  | case2 line begun =>
    rw [List.mem_singleton.mp member, String.toList_ofList]
    exact (List.prefix_append _ _).isInfix
  | case3 rest line ih =>
    rcases List.mem_cons.mp member with rfl | later
    · rw [String.toList_ofList]
      exact (List.prefix_append _ _).isInfix
    · refine (ih later).trans (List.IsSuffix.isInfix ⟨line.reverse ++ ['\r', '\n'], ?_⟩)
      simp
  | case4 c rest line single ends ih =>
    rcases List.mem_cons.mp member with rfl | later
    · rw [String.toList_ofList]
      exact (List.prefix_append _ _).isInfix
    · refine (ih later).trans (List.IsSuffix.isInfix ⟨line.reverse ++ [c], ?_⟩)
      simp
  | case5 c rest line single goesOn ih => simpa using ih member

theorem occursIn_of_mem_splitlines {part s : String} (member : part ∈ splitlines s) : occursIn part s = true :=
  occursIn_of_infix (infix_of_mem_linesFrom member)

/-- The text before the first occurrence of a mark, and the text after it. -/
def breakAt (mark : List Char) : List Char → Option (List Char × List Char)
  | [] => none
  | c :: rest =>
      match stripPrefix? mark (c :: rest) with
      | some after => some ([], after)
      | none => (breakAt mark rest).map fun parts => (c :: parts.1, parts.2)

/-- A character outside the separator comes from the parts. -/
theorem count_joined {separator : String} {c : Char} (outside : c ∉ separator.toList) (parts : List String) :
    (joined separator parts).toList.count c = (parts.map fun part => part.toList.count c).sum := by
  rw [joined, String.toList_intercalate]
  induction parts with
  | nil => rfl
  | cons first rest ih =>
    cases rest with
    | nil => simp
    | cons second rest =>
      rw [List.map_cons, List.map_cons, List.intercalate_cons_cons, List.count_append, List.count_append, ← List.map_cons, ih,
        List.count_eq_zero.mpr outside, Nat.add_zero]
      rfl

/-- Decimal digits, padded with zeros on the left to at least the given width. -/
def padded (width : Nat) (n : Nat) : String :=
  let digits := (toString n).toList
  String.ofList (List.replicate (width - digits.length) '0' ++ digits)

/-- What is left after a prefix is the rest of the text. -/
theorem stripPrefix?_eq_some {lead cs rest : List Char} : stripPrefix? lead cs = some rest ↔ cs = lead ++ rest := by
  fun_induction stripPrefix? lead cs with
  | case1 cs => simp [eq_comm]
  | case2 => simp
  | case3 p ps cs ih => simpa using ih
  | case4 p ps c cs differ => simp [Ne.symm differ]

theorem padded_digits (width n : Nat) : (padded width n).toList.all isDigit = true := by
  rw [padded, String.toList_ofList, List.all_eq_true]
  intro c member
  obtain fill | digit := List.mem_append.mp member
  · rw [List.eq_of_mem_replicate fill]
    decide
  · rw [Nat.toString_eq_repr, Nat.toList_repr] at digit
    exact Nat.isDigit_of_mem_toDigits (by decide) (by decide) digit

/-- A padded number fills its width and no more exactly if it has no more digits than that. -/
theorem exactly_padded {width n : Nat} (wide : 0 < width) :
    exactly width isDigit (padded width n).toList = true ↔ n < 10 ^ width := by
  have fits : (toString n).toList.length ≤ width ↔ n < 10 ^ width := by
    rw [Nat.toString_eq_repr, String.length_toList]
    exact Nat.length_repr_le_iff wide
  rw [exactly, padded_digits, padded, String.toList_ofList, List.length_append, List.length_replicate, ← fits]
  simp only [Bool.and_true, beq_iff_eq]
  omega

/-! Paragraph filling: words are never broken, runs of blanks at a line break are dropped. -/

def isWrapBlank (c : Char) : Bool :=
  c == '\t' || c == '\n' || c == '\x0b' || c == '\x0c' || c == '\r' || c == ' '

/-- Tabs advance to the next multiple of eight columns; a line end starts over at column zero. -/
def expandTabs : List Char → Nat → List Char
  | [], _ => []
  | '\t' :: rest, column => List.replicate (8 - column % 8) ' ' ++ expandTabs rest 0
  | c :: rest, column => c :: expandTabs rest (if c == '\n' || c == '\r' then 0 else column + 1)

/-- Maximal runs of blanks and of other characters, in order. -/
def chunks (cs : List Char) : List (List Char) :=
  cs.splitBy (fun a b => isWrapBlank a == isWrapBlank b)

def takeFitting (width used : Nat) : List (List Char) → List (List Char) × List (List Char)
  | [] => ([], [])
  | chunk :: rest =>
      if used + chunk.length ≤ width then
        let (line, left) := takeFitting width (used + chunk.length) rest
        (chunk :: line, left)
      else ([], chunk :: rest)

def dropBlankEnd (line : List (List Char)) : List (List Char) :=
  match line.reverse with
  | last :: before => if last.all isSpace then before.reverse else line
  | [] => []

/-- Every round uses up at least one chunk, so the number of chunks bounds the rounds. -/
def wrapChunks (width : Nat) (initial subsequent : String) :
    Nat → List (List Char) → List String → List String
  | 0, _, lines => lines
  | _ + 1, [], lines => lines
  | fuel + 1, first :: others, lines =>
      let indent := if lines.isEmpty then initial else subsequent
      let room := width - indent.length
      let pending := if first.all isSpace && !lines.isEmpty then others else first :: others
      let (fitting, left) := takeFitting room 0 pending
      let (line, left) := match fitting, left with
        | [], chunk :: rest => if room < chunk.length then ([chunk], rest) else ([], chunk :: rest)
        | _, _ => (fitting, left)
      let line := dropBlankEnd line
      let lines := if line.isEmpty then lines else lines ++ [indent ++ String.ofList line.flatten]
      wrapChunks width initial subsequent fuel left lines

/-- Fill a paragraph to the width, with one indent for its first line and one for the others. -/
def fill (width : Nat) (initial subsequent s : String) : String :=
  let flat := (expandTabs s.toList 0).map (fun c => if isWrapBlank c then ' ' else c)
  let pieces := chunks flat
  joined "\n" (wrapChunks width initial subsequent (pieces.length + 1) pieces [])

end Text

namespace Json

def hexDigit (n : Nat) : Char := if n < 10 then Char.ofNat (48 + n) else Char.ofNat (87 + n)

def unicodeEscape (n : Nat) : List Char :=
  ['\\', 'u', hexDigit (n / 4096 % 16), hexDigit (n / 256 % 16), hexDigit (n / 16 % 16), hexDigit (n % 16)]

/-- Escapes of a string literal restricted to printable ASCII; characters past the basic
plane become a surrogate pair. -/
def escape (c : Char) : List Char :=
  let n := c.toNat
  if c == '"' then ['\\', '"']
  else if c == '\\' then ['\\', '\\']
  else if n == 10 then ['\\', 'n']
  else if n == 13 then ['\\', 'r']
  else if n == 9 then ['\\', 't']
  else if n == 8 then ['\\', 'b']
  else if n == 12 then ['\\', 'f']
  else if 32 ≤ n && n ≤ 126 then [c]
  else if n < 65536 then unicodeEscape n
  else unicodeEscape (55296 + (n - 65536) / 1024) ++ unicodeEscape (56320 + (n - 65536) % 1024)

def quoted (s : String) : List Char := '"' :: (Text.characters s).flatMap escape ++ ['"']

/-- The shortest printed form of a float: fixed notation while the point stays within the
first sixteen places or the first four zeros, scientific notation otherwise. -/
def floatText (mantissa exponent : Int) : String :=
  let digits := (toString mantissa.natAbs).toList
  let point : Int := digits.length + exponent
  let sign := if mantissa < 0 then "-" else ""
  let body : List Char :=
    if mantissa == 0 then "0.0".toList
    else if -4 < point && point ≤ 16 then
      if point ≤ 0 then "0.".toList ++ List.replicate (-point).toNat '0' ++ digits
      else if digits.length ≤ point.toNat then
        digits ++ List.replicate (point.toNat - digits.length) '0' ++ ".0".toList
      else digits.take point.toNat ++ ['.'] ++ digits.drop point.toNat
    else
      let power := point - 1
      let tail := if digits.length ≤ 1 then [] else '.' :: digits.drop 1
      digits.take 1 ++ tail ++ ['e', if power < 0 then '-' else '+'] ++ (Text.padded 2 power.natAbs).toList
  sign ++ String.ofList body

mutual

/-- Compact serialization with the keys of every object in order. -/
def canonical : Json → List Char
  | .null => ['n', 'u', 'l', 'l']
  | .bool value => if value then ['t', 'r', 'u', 'e'] else ['f', 'a', 'l', 's', 'e']
  | .int value => (toString value).toList
  | .float mantissa exponent => (floatText mantissa exponent).toList
  | .str value => quoted value
  | .arr items => '[' :: [','].intercalate (canonicalItems items) ++ [']']
  | .obj fields =>
      let entries := (canonicalFields fields).insertionSort (fun a b => a.1 ≤ b.1)
      '\x7b' :: [','].intercalate (entries.map (fun entry => quoted entry.1 ++ ':' :: entry.2)) ++ ['\x7d']

def canonicalItems : List Json → List (List Char)
  | [] => []
  | value :: rest => canonical value :: canonicalItems rest

def canonicalFields : List (String × Json) → List (String × List Char)
  | [] => []
  | (key, value) :: rest => (key, canonical value) :: canonicalFields rest

end

theorem canonicalFields_eq (fields : Dict) : canonicalFields fields = fields.map (fun field => (field.1, field.2.canonical)) := by
  induction fields with
  | nil => rfl
  | cons field rest ih => rw [canonicalFields, ih, List.map_cons]

theorem canonicalItems_eq (items : List Json) : canonicalItems items = items.map canonical := by
  induction items with
  | nil => rfl
  | cons item rest ih => rw [canonicalItems, ih, List.map_cons]

/-- Each part takes its own length and a comma, but for the last one. -/
theorem length_commas {parts : List (List Char)} (some_ : parts ≠ []) :
    ([','].intercalate parts).length + 1 = (parts.map (fun part => part.length + 1)).sum := by
  induction parts with
  | nil => exact absurd rfl some_
  | cons first rest ih =>
    cases rest with
    | nil => simp
    | cons second rest =>
      rw [List.intercalate_cons_cons, List.length_append, List.length_append, List.map_cons, List.sum_cons,
        ← ih (List.cons_ne_nil _ _), List.length_singleton]
      omega

theorem length_canonical_obj {fields : Dict} (some_ : fields ≠ []) :
    (canonical (.obj fields)).length =
      1 + (fields.map (fun field => (quoted field.1).length + field.2.canonical.length + 2)).sum := by
  have perm := List.perm_insertionSort (fun a b : String × List Char => a.1 ≤ b.1) (canonicalFields fields)
  have printed : ((canonicalFields fields).insertionSort (fun a b => a.1 ≤ b.1)).map
      (fun entry => quoted entry.1 ++ ':' :: entry.2) ≠ [] := by
    rw [Ne, List.map_eq_nil_iff, ← List.length_eq_zero_iff, List.length_insertionSort, List.length_eq_zero_iff,
      canonicalFields_eq, List.map_eq_nil_iff]
    exact some_
  have entries : ((((canonicalFields fields).insertionSort (fun a b => a.1 ≤ b.1)).map
      (fun entry => quoted entry.1 ++ ':' :: entry.2)).map (fun part => part.length + 1)).sum =
      (fields.map (fun field => (quoted field.1).length + field.2.canonical.length + 2)).sum := by
    rw [((perm.map _).map _).sum_eq, canonicalFields_eq, List.map_map, List.map_map]
    refine congrArg List.sum (List.map_congr_left fun field _ => ?_)
    simp only [Function.comp_apply, List.length_append, List.length_cons]
    omega
  have total := length_commas printed
  rw [canonical, ← entries, ← total, List.length_append, List.length_cons, List.length_singleton]
  omega

theorem length_canonical_arr {items : List Json} (some_ : items ≠ []) :
    (canonical (.arr items)).length = 1 + (items.map (fun item => item.canonical.length + 1)).sum := by
  have printed : items.map canonical ≠ [] := by
    rw [Ne, List.map_eq_nil_iff]
    exact some_
  have total := length_commas printed
  rw [List.map_map] at total
  have entries : (fun item : Json => item.canonical.length + 1) = (fun part => part.length + 1) ∘ canonical := rfl
  rw [canonical, canonicalItems_eq, entries, ← total, List.length_append, List.length_cons, List.length_singleton]
  omega

/-- A printable character that a literal takes as it is. -/
def isPlain (c : Char) : Bool := c != '"' && c != '\\' && 32 ≤ c.toNat && c.toNat ≤ 126

theorem escape_plain {c : Char} (plain : isPlain c = true) : escape c = [c] := by
  simp only [isPlain, Bool.and_eq_true, bne_iff_ne, decide_eq_true_eq] at plain
  obtain ⟨⟨⟨quote, slash⟩, low⟩, high⟩ := plain
  simp [escape, quote, slash, low, high, show c.toNat ≠ 10 by omega, show c.toNat ≠ 13 by omega, show c.toNat ≠ 9 by omega,
    show c.toNat ≠ 8 by omega, show c.toNat ≠ 12 by omega]

theorem length_quoted_plain {s : String} (plain : s.toList.all isPlain = true) : (quoted s).length = s.length + 2 := by
  have same : s.toList.flatMap escape = s.toList := by
    have each : ∀ cs : List Char, cs.all isPlain = true → cs.flatMap escape = cs := by
      intro cs
      induction cs with
      | nil => intro _; rfl
      | cons c rest ih =>
        rw [List.all_cons, Bool.and_eq_true]
        rintro ⟨first, others⟩
        rw [List.flatMap_cons, escape_plain first, ih others]
        rfl
    exact each _ plain
  rw [quoted, Text.characters_eq, same, List.length_append, List.length_cons, List.length_singleton, String.length_toList]

/-- A string literal as a program prints it for its readers. -/
def shown (s : String) : String :=
  let quote := if Text.contains '\'' s && !Text.contains '"' s then '"' else '\''
  let body := s.toList.flatMap (fun c =>
    if c == quote || c == '\\' then ['\\', c]
    else if c == '\n' then ['\\', 'n']
    else if c == '\r' then ['\\', 'r']
    else if c == '\t' then ['\\', 't']
    else [c])
  String.ofList ([quote] ++ body ++ [quote])

mutual

def repr : Json → String
  | .null => "None"
  | .bool value => if value then "True" else "False"
  | .int value => toString value
  | .float mantissa exponent => floatText mantissa exponent
  | .str value => shown value
  | .arr items => "[" ++ Text.joined ", " (reprItems items) ++ "]"
  | .obj fields => "\x7b" ++ Text.joined ", " (reprFields fields) ++ "\x7d"

def reprItems : List Json → List String
  | [] => []
  | value :: rest => repr value :: reprItems rest

def reprFields : List (String × Json) → List String
  | [] => []
  | (key, value) :: rest => (shown key ++ ": " ++ repr value) :: reprFields rest

end

/-- Conversion to text: a string is itself, every other value its printed form. -/
def toText : Json → String
  | .str value => value
  | value => repr value

@[simp] theorem toText_str (word : String) : (Json.str word).toText = word := rfl

end Json

/-- The text of a field, an absent field being the empty text. -/
def Dict.textOr (fields : Dict) (key : String) : String :=
  match fields.find key with
  | some value => value.toText
  | none => ""

def Json.textOr (value : Json) (key : String) : String := value.fields.textOr key

@[simp] theorem Dict.textOr_set (fields : Dict) (key other : String) (value : Json) :
    (fields.set key value).textOr other = if other = key then value.toText else fields.textOr other := by
  unfold textOr
  rw [find_set]
  by_cases same : other = key <;> simp [same]

theorem Dict.textOr_of_str {fields : Dict} {key word : String} (known : fields.get key = .str word) :
    fields.textOr key = word := by
  unfold get at known
  unfold textOr
  cases found : fields.find key with
  | none => simp [found] at known
  | some value =>
    rw [found] at known
    simp only [Option.getD_some] at known
    simp [known]

end Coordinator.Kit
