import Coordinator.Kit.RawJson
import Mathlib.Data.List.Perm.Basic
import Mathlib.Tactic.Ring

/-! JSON documents as indented text: how they are printed, how a text is read, and that the one undoes the other. -/

namespace Coordinator.Kit.JsonText
open Json

/-! Decimal numbers. -/

def digitValue (c : Char) : Nat := c.toNat - 48

def natOf (digits : List Char) : Nat := digits.foldl (fun number c => 10 * number + digitValue c) 0

/-- The digits that a text begins with. -/
def spanDigits (cs : List Char) : List Char × List Char := cs.span Text.isDigit

/-- The whole part of a number: a zero, or digits that do not begin with one. -/
def wholePart : List Char → Option (List Char × List Char)
  | [] => none
  | c :: rest => if c = '0' then some (['0'], rest) else if Text.isDigit c then some (spanDigits (c :: rest)) else none

/-- The digits behind a point, if there are any. -/
def fractionPart (cs : List Char) : List Char × List Char :=
  match cs with
  | '.' :: rest => if (spanDigits rest).1.isEmpty then ([], cs) else spanDigits rest
  | _ => ([], cs)

/-- The power of ten behind an `e`, if there is one. -/
def powerPart (cs : List Char) : Option Int × List Char :=
  match cs with
  | lead :: rest =>
      if lead = 'e' || lead = 'E' then
        let signed := rest.head? == some '-' || rest.head? == some '+'
        let digits := spanDigits (if signed then rest.drop 1 else rest)
        if digits.1.isEmpty then (none, cs)
        else (some (if rest.head? == some '-' then -(natOf digits.1 : Int) else natOf digits.1), digits.2)
      else (none, cs)
  | [] => (none, cs)

/-- The shortest decimal of the floating-point number that is closest to `mantissa * 10 ^ exponent`. -/
abbrev Shortest := Int → Int → Int × Int

def signed (negative : Bool) (number : Nat) : Int := if negative then -(number : Int) else number

/-- A number: an integer, or a float when it has a fraction or a power. -/
def number (shortest : Shortest) (cs : List Char) : Option (Json × List Char) := do
  let negative := cs.head? == some '-'
  let (whole, rest) ← wholePart (if negative then cs.drop 1 else cs)
  let (fraction, behind) := fractionPart rest
  let (power, left) := powerPart behind
  if fraction.isEmpty && power.isNone then pure (.int (signed negative (natOf whole)), rest)
  else
    let decimal := shortest (signed negative (natOf (whole ++ fraction))) (power.getD 0 - fraction.length)
    pure (.float decimal.1 decimal.2, left)

/-! String literals. -/

def hexValue (c : Char) : Option Nat :=
  if Text.isDigit c then some (c.toNat - 48)
  else if 'a' ≤ c && c ≤ 'f' then some (c.toNat - 87)
  else if 'A' ≤ c && c ≤ 'F' then some (c.toNat - 55)
  else none

def hexFour (a b c d : Char) : Option Nat := do
  let a ← hexValue a
  let b ← hexValue b
  let c ← hexValue c
  let d ← hexValue d
  pure (a * 4096 + b * 256 + c * 16 + d)

def simpleEscape (c : Char) : Option Char :=
  if c = '"' || c = '\\' || c = '/' then some c
  else if c = 'b' then some '\x08'
  else if c = 'f' then some '\x0c'
  else if c = 'n' then some '\n'
  else if c = 'r' then some '\r'
  else if c = 't' then some '\t'
  else none

def isHigh (n : Nat) : Bool := 0xD800 ≤ n && n ≤ 0xDBFF
def isLow (n : Nat) : Bool := 0xDC00 ≤ n && n ≤ 0xDFFF

/-- The character of an escape, behind its backslash. A surrogate without its pair is no character of a text here. -/
def unescape : List Char → Option (Char × List Char)
  | [] => none
  | lead :: rest =>
      if lead = 'u' then
        match rest with
        | a :: b :: c :: d :: rest => do
            let point ← hexFour a b c d
            if isHigh point then
              match rest with
              | '\\' :: 'u' :: e :: f :: g :: h :: rest => do
                  let low ← hexFour e f g h
                  if isLow low then pure (Char.ofNat (0x10000 + (point - 0xD800) * 1024 + (low - 0xDC00)), rest) else none
              | _ => none
            else if isLow point then none
            else pure (Char.ofNat point, rest)
        | _ => none
      else (simpleEscape lead).map (fun c => (c, rest))

/-- The characters of a string literal up to its closing quote, and what follows; every round reads one character. -/
def scanWith : Nat → List Char → Option (List Char × List Char)
  | 0, _ => none
  | _ + 1, [] => none
  | fuel + 1, c :: rest =>
      if c = '"' then some ([], rest)
      else if c = '\\' then do
        let (read, rest) ← unescape rest
        let (others, left) ← scanWith fuel rest
        pure (read :: others, left)
      else if c.toNat < 32 then none
      else do
        let (others, left) ← scanWith fuel rest
        pure (c :: others, left)

def scan (cs : List Char) : Option (String × List Char) :=
  (scanWith (cs.length + 1) cs).map (fun found => (String.ofList found.1, found.2))

/-! Documents. -/

def isBlank (c : Char) : Bool := c == ' ' || c == '\t' || c == '\n' || c == '\r'

def skip (cs : List Char) : List Char := cs.dropWhile isBlank

/-- What follows a character that must come next. -/
def expect (c : Char) (cs : List Char) : Option (List Char) :=
  match cs with
  | first :: rest => if first = c then some rest else none
  | [] => none

def keyword (tail : List Char) (result : Json) (rest : List Char) : Option (Json × List Char) :=
  (Text.stripPrefix? tail rest).map (fun left => (result, left))

/-- An object of its members: the last one under a key counts. -/
def collected (members : List (String × Json)) : Json := .obj (Dict.update [] members)

variable (shortest : Shortest)

mutual

/-- The document that a text begins with; every call takes at least one character. -/
def value : Nat → List Char → Option (Json × List Char)
  | 0, _ => none
  | _ + 1, [] => none
  | fuel + 1, c :: rest =>
      if c = '"' then (scan rest).map (fun found => (.str found.1, found.2))
      else if c = '\x7b' then
        match expect '\x7d' (skip rest) with
        | some left => some (.obj [], left)
        | none => do
            let (first, rest) ← member fuel (skip rest)
            let (others, left) ← members fuel rest
            pure (collected (first :: others), left)
      else if c = '[' then
        match expect ']' (skip rest) with
        | some left => some (.arr [], left)
        | none => do
            let (first, rest) ← value fuel (skip rest)
            let (others, left) ← items fuel rest
            pure (.arr (first :: others), left)
      else if c = 'n' then keyword ['u', 'l', 'l'] .null rest
      else if c = 't' then keyword ['r', 'u', 'e'] (.bool true) rest
      else if c = 'f' then keyword ['a', 'l', 's', 'e'] (.bool false) rest
      else number shortest (c :: rest)

/-- The items behind one, up to the closing bracket. -/
def items : Nat → List Char → Option (List Json × List Char)
  | 0, _ => none
  | fuel + 1, cs =>
      match expect ']' (skip cs) with
      | some left => some ([], left)
      | none => do
          let rest ← expect ',' (skip cs)
          let (first, rest) ← value fuel (skip rest)
          let (others, left) ← items fuel rest
          pure (first :: others, left)

/-- A key with its document. -/
def member : Nat → List Char → Option ((String × Json) × List Char)
  | 0, _ => none
  | fuel + 1, cs => do
      let rest ← expect '"' cs
      let (key, rest) ← scan rest
      let rest ← expect ':' (skip rest)
      let (found, left) ← value fuel (skip rest)
      pure ((key, found), left)

/-- The members behind one, up to the closing brace. -/
def members : Nat → List Char → Option (List (String × Json) × List Char)
  | 0, _ => none
  | fuel + 1, cs =>
      match expect '\x7d' (skip cs) with
      | some left => some ([], left)
      | none => do
          let rest ← expect ',' (skip cs)
          let (first, rest) ← member fuel (skip rest)
          let (others, left) ← members fuel rest
          pure (first :: others, left)

end

/-- The document that a text consists of. -/
def loads (text : List Char) : Option Json := do
  let (found, rest) ← value shortest (2 * text.length + 1) (skip text)
  if (skip rest).isEmpty then pure found else none

/-! Printing. -/

/-- How a document is laid out: the blanks between its items and behind the colon of a key, and how a text spells a character. -/
structure Layout where
  gap : Nat → List Char
  space : List Char
  escape : Char → List Char
  gapBlank : ∀ level, ∀ c ∈ gap level, isBlank c = true
  spaceBlank : ∀ c ∈ space, isBlank c = true
  escapeRead : ∀ fuel c rest, scanWith (fuel + 1) (escape c ++ rest) = (scanWith fuel rest).map (fun found => (c :: found.1, found.2))

/-- A line break, and two blanks for each level. -/
def newline (level : Nat) : List Char := '\n' :: List.replicate (2 * level) ' '

variable (layout : Layout)

def spelled (text : String) : List Char := '"' :: (Text.characters text).flatMap layout.escape ++ ['"']

mutual

/-- A document, with the gap of a level before each item and each member, and of the level around it before the closing bracket. -/
def pretty (level : Nat) : Json → List Char
  | .null => ['n', 'u', 'l', 'l']
  | .bool value => if value then ['t', 'r', 'u', 'e'] else ['f', 'a', 'l', 's', 'e']
  | .int value => (toString value).toList
  | .float mantissa exponent => (floatText mantissa exponent).toList
  | .str value => spelled layout value
  | .arr [] => ['[', ']']
  | .arr (first :: others) => '[' :: layout.gap (level + 1) ++ pretty (level + 1) first ++ prettyItems level others
  | .obj [] => ['\x7b', '\x7d']
  | .obj ((key, first) :: others) =>
      '\x7b' :: layout.gap (level + 1) ++ spelled layout key ++ ':' :: layout.space ++ pretty (level + 1) first ++ prettyMembers level others

def prettyItems (level : Nat) : List Json → List Char
  | [] => layout.gap level ++ [']']
  | first :: others => ',' :: layout.gap (level + 1) ++ pretty (level + 1) first ++ prettyItems level others

def prettyMembers (level : Nat) : List (String × Json) → List Char
  | [] => layout.gap level ++ ['\x7d']
  | (key, first) :: others =>
      ',' :: layout.gap (level + 1) ++ spelled layout key ++ ':' :: layout.space ++ pretty (level + 1) first ++ prettyMembers level others

end

mutual

/-- The document with the members of every object in the order of their keys. -/
def sortKeys : Json → Json
  | .arr items => .arr (sortItems items)
  | .obj fields => .obj ((sortMembers fields).insertionSort (fun a b => a.1 ≤ b.1))
  | plain => plain

def sortItems : List Json → List Json
  | [] => []
  | first :: others => sortKeys first :: sortItems others

def sortMembers : List (String × Json) → List (String × Json)
  | [] => []
  | (key, first) :: others => (key, sortKeys first) :: sortMembers others

end

/-- The text of a document with its keys in order. -/
def dumps (document : Json) : List Char := pretty layout 0 (sortKeys document)

/-! Numbers are read as they are printed. -/

theorem all_of {p : Char → Bool} {cs : List Char} (each : cs.all p = true) : ∀ c ∈ cs, p c = true := List.all_eq_true.mp each

theorem foldl_digits (digits : List Char) (start : Nat) :
    digits.foldl (fun number c => 10 * number + digitValue c) start = start * 10 ^ digits.length + natOf digits := by
  induction digits generalizing start with
  | nil => simp [natOf]
  | cons c rest ih =>
    rw [natOf, List.foldl_cons, List.foldl_cons, ih, ih (10 * 0 + digitValue c), List.length_cons]
    ring

theorem natOf_append (first second : List Char) : natOf (first ++ second) = natOf first * 10 ^ second.length + natOf second := by
  rw [natOf, List.foldl_append, foldl_digits]
  rfl

theorem natOf_zeros (count : Nat) : natOf (List.replicate count '0') = 0 := by
  induction count with
  | zero => rfl
  | succ count ih =>
    rw [List.replicate_succ', natOf_append, ih]
    rfl

theorem digitValue_digitChar {digit : Nat} (small : digit < 10) : digitValue digit.digitChar = digit := by
  have each : ∀ digit < 10, digitValue (Nat.digitChar digit) = digit := by decide
  exact each digit small

theorem natOf_toDigits (n : Nat) : natOf (Nat.toDigits 10 n) = n := by
  induction n using Nat.strong_induction_on with
  | h n ih =>
    rw [Nat.toDigits_eq_if (by decide)]
    split
    · rename_i small
      change 10 * 0 + digitValue n.digitChar = n
      rw [digitValue_digitChar small]
      omega
    · rw [natOf_append, ih (n / 10) (by omega)]
      change n / 10 * 10 ^ 1 + (10 * 0 + digitValue (n % 10).digitChar) = n
      rw [digitValue_digitChar (Nat.mod_lt n (by decide))]
      omega

/-- Digits without a leading zero, but for zero itself. -/
structure Whole (digits : List Char) : Prop where
  some_ : digits ≠ []
  all_ : ∀ c ∈ digits, Text.isDigit c = true
  lead : digits = ['0'] ∨ digits.head? ≠ some '0'

theorem isDigit_toDigits {n : Nat} {c : Char} (member : c ∈ Nat.toDigits 10 n) : Text.isDigit c = true :=
  Nat.isDigit_of_mem_toDigits (by decide) (by decide) member

theorem toDigits_head {n : Nat} (positive : n ≠ 0) : (Nat.toDigits 10 n).head? ≠ some '0' := by
  induction n using Nat.strong_induction_on with
  | h n ih =>
    rw [Nat.toDigits_eq_if (by decide)]
    split
    · rename_i small
      have each : ∀ digit < 10, digit ≠ 0 → [Nat.digitChar digit].head? ≠ some '0' := by decide
      exact each n small positive
    · have further := ih (n / 10) (by omega) (by omega)
      cases digits : Nat.toDigits 10 (n / 10) with
      | nil => exact absurd digits Nat.toDigits_ne_nil
      | cons c rest =>
        rw [digits] at further
        exact further

theorem whole_toDigits (n : Nat) : Whole (Nat.toDigits 10 n) where
  some_ := Nat.toDigits_ne_nil
  all_ _ := isDigit_toDigits
  lead := by
    by_cases zero : n = 0
    · exact .inl (by rw [zero]; rfl)
    · exact .inr (toDigits_head zero)

/-- No digit comes next. -/
def NoDigit (rest : List Char) : Prop := ∀ c, rest.head? = some c → Text.isDigit c = false

theorem spanDigits_append {digits rest : List Char} (all_ : ∀ c ∈ digits, Text.isDigit c = true) (next : NoDigit rest) :
    spanDigits (digits ++ rest) = (digits, rest) := by
  rw [spanDigits, List.span_eq_takeWhile_dropWhile, List.takeWhile_append_of_pos all_, List.dropWhile_append_of_pos all_]
  cases rest with
  | nil => simp
  | cons c rest => simp [next c rfl]

theorem wholePart_append {digits rest : List Char} (whole : Whole digits) (next : NoDigit rest) :
    wholePart (digits ++ rest) = some (digits, rest) := by
  cases digits with
  | nil => exact absurd rfl whole.some_
  | cons c others =>
    obtain zero | lead := whole.lead
    · cases zero
      rfl
    · have digit := whole.all_ c List.mem_cons_self
      have other : c ≠ '0' := fun same => lead (by rw [same]; rfl)
      have spanned := spanDigits_append whole.all_ next
      rw [List.cons_append] at spanned ⊢
      rw [wholePart, if_neg other, if_pos digit, spanned]

/-- Nothing comes next that a number would go on with. -/
def Stops (rest : List Char) : Prop := ∀ c, rest.head? = some c → Text.isDigit c = false ∧ c ≠ '.' ∧ c ≠ 'e' ∧ c ≠ 'E'

theorem Stops.noDigit {rest : List Char} (stops : Stops rest) : NoDigit rest := fun c next => (stops c next).1

theorem fractionPart_none {rest : List Char} (next : rest.head? ≠ some '.') : fractionPart rest = ([], rest) := by
  unfold fractionPart
  split
  · exact absurd rfl next
  · rfl

theorem powerPart_none {rest : List Char} (next : ∀ c, rest.head? = some c → c ≠ 'e' ∧ c ≠ 'E') : powerPart rest = (none, rest) := by
  cases rest with
  | nil => rfl
  | cons c rest =>
    obtain ⟨lower, upper⟩ := next c rfl
    simp [powerPart, lower, upper]

theorem head_of_whole {digits rest : List Char} (whole : Whole digits) : ((digits ++ rest).head? == some '-') = false := by
  cases digits with
  | nil => exact absurd rfl whole.some_
  | cons c others =>
    have digit := whole.all_ c List.mem_cons_self
    rw [List.cons_append, List.head?_cons, beq_eq_false_iff_ne]
    intro sign
    cases sign
    cases digit

/-- A number without a fraction and a power is an integer. -/
theorem number_whole (negative : Bool) {digits rest : List Char} (whole : Whole digits) (stops : Stops rest) :
    number shortest ((if negative then ['-'] else []) ++ (digits ++ rest)) = some (.int (signed negative (natOf digits)), rest) := by
  have fraction := fractionPart_none fun point => (stops '.' point).2.1 rfl
  have power := powerPart_none fun c next => (stops c next).2.2
  cases negative with
  | true =>
    rw [if_pos rfl, List.singleton_append, number, List.head?_cons]
    simp only [beq_self_eq_true, if_true, List.drop_one, List.tail_cons, wholePart_append whole stops.noDigit]
    simp [fraction, power]
  | false =>
    rw [if_neg Bool.false_ne_true, List.nil_append, number, head_of_whole whole]
    simp only [Bool.false_eq_true, if_false, wholePart_append whole stops.noDigit]
    simp [fraction, power]

theorem number_int (value : Int) {rest : List Char} (stops : Stops rest) :
    number shortest ((toString value).toList ++ rest) = some (.int value, rest) := by
  cases value with
  | ofNat n =>
    have digits : (toString (Int.ofNat n)).toList = Nat.toDigits 10 n := Nat.toList_repr
    have read := number_whole shortest false (whole_toDigits n) stops
    rw [if_neg Bool.false_ne_true, List.nil_append, natOf_toDigits] at read
    rw [digits, read]
    rfl
  | negSucc n =>
    have digits : (toString (Int.negSucc n)).toList = '-' :: Nat.toDigits 10 (n + 1) := by
      change ("-" ++ Nat.repr (n + 1)).toList = _
      rw [String.toList_append, Nat.toList_repr]
      rfl
    have read := number_whole shortest true (whole_toDigits (n + 1)) stops
    rw [if_pos rfl, List.singleton_append, natOf_toDigits] at read
    rw [digits, List.cons_append, read]
    rfl

theorem fractionPart_some {digits rest : List Char} (some_ : digits ≠ []) (all_ : ∀ c ∈ digits, Text.isDigit c = true)
    (next : NoDigit rest) : fractionPart ('.' :: (digits ++ rest)) = (digits, rest) := by
  have more : digits.isEmpty = false := List.isEmpty_eq_false_iff.mpr some_
  simp [fractionPart, spanDigits_append all_ next, more]

theorem powerPart_some (negative : Bool) {digits rest : List Char} (some_ : digits ≠ []) (all_ : ∀ c ∈ digits, Text.isDigit c = true)
    (next : NoDigit rest) : powerPart ('e' :: (if negative then '-' else '+') :: (digits ++ rest)) =
      (some (signed negative (natOf digits)), rest) := by
  have more : digits.isEmpty = false := List.isEmpty_eq_false_iff.mpr some_
  cases negative with
  | true => simp [powerPart, spanDigits_append all_ next, more, signed]
  | false => simp [powerPart, spanDigits_append all_ next, more, signed]

/-- A number with a fraction. -/
theorem number_fraction (negative : Bool) {whole fraction rest : List Char} (first : Whole whole) (some_ : fraction ≠ [])
    (all_ : ∀ c ∈ fraction, Text.isDigit c = true) (stops : Stops rest) :
    number shortest ((if negative then ['-'] else []) ++ (whole ++ '.' :: (fraction ++ rest))) =
      some (.float (shortest (signed negative (natOf (whole ++ fraction))) (0 - fraction.length)).1
        (shortest (signed negative (natOf (whole ++ fraction))) (0 - fraction.length)).2, rest) := by
  have point : NoDigit ('.' :: (fraction ++ rest)) := by
    intro c next
    cases next
    decide
  have part := fractionPart_some some_ all_ stops.noDigit
  have power := powerPart_none fun c next => (stops c next).2.2
  cases negative with
  | true =>
    rw [if_pos rfl, List.singleton_append, number, List.head?_cons]
    simp only [beq_self_eq_true, if_true, List.drop_one, List.tail_cons, wholePart_append first point]
    simp [part, power, some_]
  | false =>
    rw [if_neg Bool.false_ne_true, List.nil_append, number, head_of_whole first]
    simp only [Bool.false_eq_true, if_false, wholePart_append first point]
    simp [part, power, some_]

/-- A number with a power and perhaps a fraction. -/
theorem number_power (negative below : Bool) {whole fraction digits rest : List Char} (first : Whole whole)
    (all_ : ∀ c ∈ fraction, Text.isDigit c = true) (some_ : digits ≠ []) (each : ∀ c ∈ digits, Text.isDigit c = true)
    (stops : Stops rest) :
    number shortest ((if negative then ['-'] else []) ++ (whole ++ ((if fraction = [] then [] else '.' :: fraction) ++
      'e' :: (if below then '-' else '+') :: (digits ++ rest)))) =
      some (.float (shortest (signed negative (natOf (whole ++ fraction))) (signed below (natOf digits) - fraction.length)).1
        (shortest (signed negative (natOf (whole ++ fraction))) (signed below (natOf digits) - fraction.length)).2, rest) := by
  have power := powerPart_some below some_ each stops.noDigit
  have lead : NoDigit ('e' :: (if below then '-' else '+') :: (digits ++ rest)) := by
    intro c next
    cases next
    decide
  have parts : NoDigit ((if fraction = [] then [] else '.' :: fraction) ++ 'e' :: (if below then '-' else '+') :: (digits ++ rest)) ∧
      fractionPart ((if fraction = [] then [] else '.' :: fraction) ++ 'e' :: (if below then '-' else '+') :: (digits ++ rest)) =
        (fraction, 'e' :: (if below then '-' else '+') :: (digits ++ rest)) := by
    by_cases empty : fraction = []
    · rw [if_pos empty, empty]
      exact ⟨lead, fractionPart_none (by simp)⟩
    · rw [if_neg empty, List.cons_append]
      refine ⟨?_, fractionPart_some empty all_ lead⟩
      intro c next
      cases next
      decide
  cases negative with
  | true =>
    rw [if_pos rfl, List.singleton_append, number, List.head?_cons]
    simp only [beq_self_eq_true, if_true, List.drop_one, List.tail_cons, wholePart_append first parts.1]
    simp [parts.2, power]
  | false =>
    rw [if_neg Bool.false_ne_true, List.nil_append, number, head_of_whole first]
    simp only [Bool.false_eq_true, if_false, wholePart_append first parts.1]
    simp [parts.2, power]

/-- The shortest decimal of some floating-point number, with however many zeros behind it; zero has one spelling. -/
structure Printed (mantissa exponent : Int) : Prop where
  shortest : ∀ zeros : Nat, shortest (mantissa * 10 ^ zeros) (exponent - zeros) = (mantissa, exponent)
  zero : mantissa = 0 → exponent = 0

theorem signed_natAbs (mantissa : Int) (zeros : Nat) :
    signed (decide (mantissa < 0)) (mantissa.natAbs * 10 ^ zeros) = mantissa * 10 ^ zeros := by
  unfold signed
  by_cases below : mantissa < 0
  · have abs : (mantissa.natAbs : Int) = -mantissa := by omega
    rw [if_pos (decide_eq_true below), Nat.cast_mul, Nat.cast_pow, abs]
    push_cast
    ring
  · have abs : (mantissa.natAbs : Int) = mantissa := by omega
    rw [if_neg (by simp [below]), Nat.cast_mul, Nat.cast_pow, abs]
    rfl

theorem Printed.back {shortest : Shortest} {mantissa exponent : Int} (printed : Printed shortest mantissa exponent) {zeros : Nat}
    {digits : List Char} {power : Int} (number : natOf digits = mantissa.natAbs * 10 ^ zeros) (shift : power = exponent - zeros) :
    shortest (signed (decide (mantissa < 0)) (natOf digits)) power = (mantissa, exponent) := by
  rw [number, signed_natAbs, shift]
  exact printed.shortest zeros

theorem natOf_padded (width n : Nat) : natOf (Text.padded width n).toList = n := by
  rw [Text.padded, String.toList_ofList, natOf_append, natOf_zeros, Nat.toString_eq_repr, Nat.toList_repr, natOf_toDigits]
  omega

theorem padded_ne_nil (width n : Nat) : (Text.padded width n).toList ≠ [] := by
  rw [Text.padded, String.toList_ofList, Nat.toString_eq_repr, Nat.toList_repr]
  exact List.append_ne_nil_of_right_ne_nil _ Nat.toDigits_ne_nil

theorem isDigit_padded {width n : Nat} : ∀ c ∈ (Text.padded width n).toList, Text.isDigit c = true :=
  List.all_eq_true.mp (Text.padded_digits width n)

theorem whole_take {n count : Nat} (positive : n ≠ 0) (some_ : count ≠ 0) : Whole ((Nat.toDigits 10 n).take count) where
  some_ := by
    rw [Ne, List.take_eq_nil_iff, not_or]
    exact ⟨some_, Nat.toDigits_ne_nil⟩
  all_ _ member := isDigit_toDigits (List.mem_of_mem_take member)
  lead := by
    rw [List.head?_take, if_neg some_]
    exact .inr (toDigits_head positive)

theorem floatText_toList (mantissa : Int) {body : List Char} : ((if mantissa < 0 then "-" else "") ++ String.ofList body).toList =
    (if decide (mantissa < 0) then ['-'] else []) ++ body := by
  rw [String.toList_append, String.toList_ofList]
  by_cases below : mantissa < 0
  · simp [below]
  · simp [below]

/-- A float is read as it is printed, in every notation. -/
theorem number_float {mantissa exponent : Int} (printed : Printed shortest mantissa exponent) {rest : List Char}
    (stops : Stops rest) :
    number shortest ((floatText mantissa exponent).toList ++ rest) = some (.float mantissa exponent, rest) := by
  have digits : (toString mantissa.natAbs).toList = Nat.toDigits 10 mantissa.natAbs := Nat.toList_repr
  rw [floatText, floatText_toList, digits, List.append_assoc]
  by_cases none_ : mantissa = 0
  · have zero := printed.zero none_
    subst none_ zero
    have read := number_fraction shortest false (show Whole ['0'] from ⟨by simp, all_of rfl, .inl rfl⟩) (show ['0'] ≠ [] by simp)
      (all_of rfl) stops
    have found : shortest (signed false (natOf (['0'] ++ ['0']))) (0 - (['0'] : List Char).length) = (0, 0) := by
      exact printed.shortest 1
    rw [found] at read
    exact read
  have positive : mantissa.natAbs ≠ 0 := by omega
  have other : (mantissa == 0) = false := beq_eq_false_iff_ne.mpr none_
  have long : 0 < (Nat.toDigits 10 mantissa.natAbs).length := List.length_pos_iff.mpr Nat.toDigits_ne_nil
  have each : ∀ c ∈ Nat.toDigits 10 mantissa.natAbs, Text.isDigit c = true := fun _ => isDigit_toDigits
  dsimp only
  rw [other, if_neg Bool.false_ne_true]
  have value : natOf (Nat.toDigits 10 mantissa.natAbs) = mantissa.natAbs := natOf_toDigits _
  have front (count : Nat) (some_ : count ≠ 0) := whole_take positive some_
  generalize spelled : Nat.toDigits 10 mantissa.natAbs = ds at long each value front
  have some_ : ds ≠ [] := List.ne_nil_of_length_pos long
  have one : Whole ['0'] := ⟨by simp, all_of rfl, .inl rfl⟩
  by_cases fixed : (-4 < (ds.length : Int) + exponent && (ds.length : Int) + exponent ≤ 16) = true
  · rw [if_pos fixed]
    by_cases before : (ds.length : Int) + exponent ≤ 0
    · -- The point is before all the digits.
      have zeros : ∀ c ∈ List.replicate (-((ds.length : Int) + exponent)).toNat '0' ++ ds, Text.isDigit c = true := by
        intro c member
        obtain zero | digit := List.mem_append.mp member
        · rw [List.eq_of_mem_replicate zero]
          decide
        · exact each c digit
      have read := number_fraction shortest (decide (mantissa < 0)) one (List.append_ne_nil_of_right_ne_nil _ some_) zeros stops
      have found : shortest (signed (decide (mantissa < 0))
          (natOf (['0'] ++ (List.replicate (-((ds.length : Int) + exponent)).toNat '0' ++ ds))))
          (0 - (List.replicate (-((ds.length : Int) + exponent)).toNat '0' ++ ds).length) = (mantissa, exponent) := by
        refine @Printed.back _ _ _ printed 0 _ _ ?_ ?_
        · rw [natOf_append, natOf_append, natOf_zeros, value]
          simp [natOf, digitValue]
        · rw [List.length_append, List.length_replicate]
          omega
      rw [found] at read
      rw [if_pos before]
      simpa using read
    · rw [if_neg before]
      by_cases behind : ds.length ≤ ((ds.length : Int) + exponent).toNat
      · -- The point is behind all the digits and some zeros.
        obtain ⟨count, counted⟩ : ∃ count, ((ds.length : Int) + exponent).toNat - ds.length = count := ⟨_, rfl⟩
        have wide : Whole (ds ++ List.replicate count '0') := by
          refine ⟨List.append_ne_nil_of_left_ne_nil some_ _, fun c member => ?_, ?_⟩
          · obtain digit | zero := List.mem_append.mp member
            · exact each c digit
            · rw [List.eq_of_mem_replicate zero]
              decide
          · rw [List.head?_append_of_ne_nil _ some_, ← spelled]
            exact .inr (toDigits_head positive)
        have read := number_fraction shortest (decide (mantissa < 0)) wide (show ['0'] ≠ [] by simp) (all_of rfl) stops
        have found : shortest (signed (decide (mantissa < 0)) (natOf (ds ++ List.replicate count '0' ++ ['0'])))
            (0 - (['0'] : List Char).length) = (mantissa, exponent) := by
          refine @Printed.back _ _ _ printed (count + 1) _ _ ?_ ?_
          · rw [natOf_append, natOf_append, natOf_zeros, value, List.length_replicate, pow_succ, ← Nat.mul_assoc]
            rfl
          · rw [List.length_singleton]
            omega
        rw [found] at read
        rw [if_pos behind, counted]
        simpa using read
      · -- The point is between the digits.
        obtain ⟨place, placed⟩ : ∃ place, ((ds.length : Int) + exponent).toNat = place := ⟨_, rfl⟩
        rw [placed] at behind
        have left : ds.drop place ≠ [] := List.ne_nil_of_length_pos (by rw [List.length_drop]; omega)
        have read := number_fraction shortest (decide (mantissa < 0)) (front place (by omega)) left
          (fun c member => each c (List.mem_of_mem_drop member)) stops
        have found : shortest (signed (decide (mantissa < 0)) (natOf (ds.take place ++ ds.drop place)))
            (0 - (ds.drop place).length) = (mantissa, exponent) := by
          refine @Printed.back _ _ _ printed 0 _ _ ?_ ?_
          · rw [List.take_append_drop, value, pow_zero, Nat.mul_one]
          · rw [List.length_drop]
            omega
        rw [found] at read
        rw [placed, if_neg behind]
        simpa using read
  · -- One digit is before the point, and a power behind the others.
    rw [if_neg fixed]
    obtain ⟨power, raised⟩ : ∃ power, (ds.length : Int) + exponent - 1 = power := ⟨_, rfl⟩
    have others : ∀ c ∈ ds.drop 1, Text.isDigit c = true := fun c member => each c (List.mem_of_mem_drop member)
    have read := number_power shortest (decide (mantissa < 0)) (decide (power < 0)) (front 1 Nat.one_ne_zero) others
      (padded_ne_nil 2 power.natAbs) isDigit_padded stops
    have height : signed (decide (power < 0)) (natOf (Text.padded 2 power.natAbs).toList) = power := by
      have sum := signed_natAbs power 0
      rw [pow_zero, pow_zero, Nat.mul_one, Int.mul_one] at sum
      rw [natOf_padded, sum]
    have found : shortest (signed (decide (mantissa < 0)) (natOf (ds.take 1 ++ ds.drop 1)))
        (signed (decide (power < 0)) (natOf (Text.padded 2 power.natAbs).toList) - (ds.drop 1).length) = (mantissa, exponent) := by
      refine @Printed.back _ _ _ printed 0 _ _ ?_ ?_
      · rw [List.take_append_drop, value, pow_zero, Nat.mul_one]
      · rw [height, List.length_drop]
        omega
    rw [found] at read
    have tail : (if ds.length ≤ 1 then [] else '.' :: ds.drop 1) = (if ds.drop 1 = [] then [] else '.' :: ds.drop 1) := by
      by_cases short : ds.length ≤ 1
      · rw [if_pos short, if_pos (List.drop_eq_nil_of_le short)]
      · rw [if_neg short, if_neg (List.ne_nil_of_length_pos (by rw [List.length_drop]; omega))]
    rw [raised, tail]
    simpa using read

/-! String literals are read as they are printed. -/

theorem hexValue_hexDigit {n : Nat} (small : n < 16) : hexValue (hexDigit n) = some n := by
  have each : ∀ n < 16, hexValue (hexDigit n) = some n := by decide
  exact each n small

theorem hexFour_digits {n : Nat} (small : n < 65536) :
    hexFour (hexDigit (n / 4096 % 16)) (hexDigit (n / 256 % 16)) (hexDigit (n / 16 % 16)) (hexDigit (n % 16)) = some n := by
  have digit (m : Nat) : hexValue (hexDigit (m % 16)) = some (m % 16) := hexValue_hexDigit (Nat.mod_lt m (by decide))
  have whole : n / 4096 % 16 * 4096 + n / 256 % 16 * 256 + n / 16 % 16 * 16 + n % 16 = n := by omega
  rw [hexFour, digit, digit, digit, digit]
  exact congrArg some whole

theorem unescape_point {n : Nat} (small : n < 65536) (high : isHigh n = false) (low : isLow n = false) (rest : List Char) :
    unescape ((unicodeEscape n).tail ++ rest) = some (Char.ofNat n, rest) := by
  change unescape ('u' :: hexDigit (n / 4096 % 16) :: hexDigit (n / 256 % 16) :: hexDigit (n / 16 % 16) :: hexDigit (n % 16) ::
    rest) = _
  rw [unescape, if_pos rfl, hexFour_digits small]
  simp [high, low]

theorem unescape_pair {high low : Nat} (first : isHigh high = true) (second : isLow low = true) (rest : List Char) :
    unescape ((unicodeEscape high).tail ++ (unicodeEscape low ++ rest)) =
      some (Char.ofNat (0x10000 + (high - 0xD800) * 1024 + (low - 0xDC00)), rest) := by
  have small : high < 65536 ∧ low < 65536 := by
    simp only [isHigh, isLow, Bool.and_eq_true, decide_eq_true_eq] at first second
    omega
  change unescape ('u' :: hexDigit (high / 4096 % 16) :: hexDigit (high / 256 % 16) :: hexDigit (high / 16 % 16) ::
    hexDigit (high % 16) :: '\\' :: 'u' :: hexDigit (low / 4096 % 16) :: hexDigit (low / 256 % 16) :: hexDigit (low / 16 % 16) ::
    hexDigit (low % 16) :: rest) = _
  rw [unescape, if_pos rfl, hexFour_digits small.1]
  simp [first, second, hexFour_digits small.2]

theorem scanWith_escaped {fuel : Nat} {c : Char} {code rest : List Char}
    (read : ∀ rest, unescape (code ++ rest) = some (c, rest)) :
    scanWith (fuel + 1) ('\\' :: (code ++ rest)) = (scanWith fuel rest).map (fun found => (c :: found.1, found.2)) := by
  rw [scanWith, if_neg (by decide), if_pos rfl, read]
  change (scanWith fuel rest >>= fun found => pure (c :: found.1, found.2)) = _
  cases scanWith fuel rest <;> rfl

theorem eq_ofNat {c : Char} {n : Nat} (same : c.toNat = n) : c = Char.ofNat n := by
  rw [← same, Char.ofNat_toNat]

/-- A character is written with a letter that is read back as it, as itself, or as one escape or two. -/
theorem escape_induction {motive : List Char → Prop} {c : Char}
    (short : ∀ code ∈ ['"', '\\', 'n', 'r', 't', 'b', 'f'], (∀ rest, unescape (code :: rest) = some (c, rest)) → motive ['\\', code])
    (plain : ¬ (c == '"') = true → ¬ (c == '\\') = true → (decide (32 ≤ c.toNat) && decide (c.toNat ≤ 126)) = true → motive [c])
    (basic : c.toNat < 65536 → motive (unicodeEscape c.toNat))
    (wide : ¬ c.toNat < 65536 →
      motive (unicodeEscape (55296 + (c.toNat - 65536) / 1024) ++ unicodeEscape (56320 + (c.toNat - 65536) % 1024))) :
    motive (escape c) := by
  unfold Json.escape
  refine iteInduction (fun quote => short '"' (by decide) fun rest => by rw [beq_iff_eq.mp quote]; rfl) fun quote => ?_
  refine iteInduction (fun slash => short '\\' (by decide) fun rest => by rw [beq_iff_eq.mp slash]; rfl) fun slash => ?_
  refine iteInduction (fun feed => short 'n' (by decide) fun rest => by rw [eq_ofNat (beq_iff_eq.mp feed)]; rfl) fun _ => ?_
  refine iteInduction (fun return_ => short 'r' (by decide) fun rest => by rw [eq_ofNat (beq_iff_eq.mp return_)]; rfl) fun _ => ?_
  refine iteInduction (fun tab => short 't' (by decide) fun rest => by rw [eq_ofNat (beq_iff_eq.mp tab)]; rfl) fun _ => ?_
  refine iteInduction (fun back => short 'b' (by decide) fun rest => by rw [eq_ofNat (beq_iff_eq.mp back)]; rfl) fun _ => ?_
  refine iteInduction (fun form => short 'f' (by decide) fun rest => by rw [eq_ofNat (beq_iff_eq.mp form)]; rfl) fun _ => ?_
  exact iteInduction (plain quote slash) fun _ => iteInduction basic wide

/-- An escaped character is read as itself. -/
theorem scanWith_escape (fuel : Nat) (c : Char) (rest : List Char) :
    scanWith (fuel + 1) (escape c ++ rest) = (scanWith fuel rest).map (fun found => (c :: found.1, found.2)) := by
  have below : c.toNat < 0xD800 ∨ 0xDFFF < c.toNat ∧ c.toNat < 0x110000 := c.valid
  refine escape_induction (motive := fun code => scanWith (fuel + 1) (code ++ rest) = _) (fun code _ read => ?_)
    (fun quote slash plain => ?_) (fun basic => ?_) (fun wide => ?_)
  · exact @scanWith_escaped fuel c [code] rest read
  · rw [beq_iff_eq] at quote slash
    rw [Bool.and_eq_true, decide_eq_true_eq] at plain
    rw [List.singleton_append, scanWith, if_neg quote, if_neg slash, if_neg (by omega)]
    change (scanWith fuel rest >>= fun found => pure (c :: found.1, found.2)) = _
    cases scanWith fuel rest <;> rfl
  · refine @scanWith_escaped fuel c (unicodeEscape c.toNat).tail rest fun rest => ?_
    rw [unescape_point basic, Char.ofNat_toNat]
    · rw [isHigh, Bool.and_eq_false_iff, decide_eq_false_iff_not, decide_eq_false_iff_not]
      omega
    · rw [isLow, Bool.and_eq_false_iff, decide_eq_false_iff_not, decide_eq_false_iff_not]
      omega
  · rw [List.append_assoc]
    have read := @scanWith_escaped fuel c ((unicodeEscape (55296 + (c.toNat - 65536) / 1024)).tail ++
      unicodeEscape (56320 + (c.toNat - 65536) % 1024)) rest fun rest => ?_
    · rw [← read]
      rfl
    · rw [List.append_assoc, unescape_pair, eq_ofNat (n := c.toNat) rfl]
      · refine congrArg (fun n => some (Char.ofNat n, rest)) ?_
        rw [Char.ofNat_toNat]
        omega
      · rw [isHigh, Bool.and_eq_true, decide_eq_true_eq, decide_eq_true_eq]
        omega
      · rw [isLow, Bool.and_eq_true, decide_eq_true_eq, decide_eq_true_eq]
        omega

theorem scanWith_text (cs : List Char) {fuel : Nat} (enough : cs.length ≤ fuel) (rest : List Char) :
    scanWith (fuel + 1) (cs.flatMap layout.escape ++ '"' :: rest) = some (cs, rest) := by
  induction cs generalizing fuel with
  | nil => rfl
  | cons c cs ih =>
    rw [List.length_cons] at enough
    obtain ⟨more, rfl⟩ := Nat.exists_eq_add_of_le' (Nat.lt_of_lt_of_le (Nat.succ_pos cs.length) enough)
    rw [List.flatMap_cons, List.append_assoc, layout.escapeRead, ih (by omega)]
    rfl

theorem escape_ne_nil (c : Char) : layout.escape c ≠ [] := by
  intro empty
  have read := layout.escapeRead 0 c ['"']
  rw [empty] at read
  cases read

theorem length_escaped (cs : List Char) : cs.length ≤ (cs.flatMap layout.escape).length := by
  induction cs with
  | nil => exact Nat.le_refl _
  | cons c cs ih =>
    have one := List.length_pos_iff.mpr (escape_ne_nil layout c)
    rw [List.flatMap_cons, List.length_append, List.length_cons]
    omega

theorem scan_spelled (text : String) (rest : List Char) :
    scan (text.toList.flatMap layout.escape ++ '"' :: rest) = some (text, rest) := by
  have short := length_escaped layout text.toList
  rw [scan, scanWith_text layout text.toList (by rw [List.length_append]; omega), Option.map_some, String.ofList_toList]

/-- A character past printable ASCII may stand for itself. -/
theorem scanWith_raw (fuel : Nat) (c : Char) (rest : List Char) :
    scanWith (fuel + 1) (rawEscape c ++ rest) = (scanWith fuel rest).map (fun found => (c :: found.1, found.2)) := by
  rw [rawEscape]
  split_ifs with past
  · have quote : c ≠ '"' := by
      rintro rfl
      exact absurd past (by decide)
    have slash : c ≠ '\\' := by
      rintro rfl
      exact absurd past (by decide)
    rw [List.singleton_append, scanWith, if_neg quote, if_neg slash, if_neg (by omega)]
    change (scanWith fuel rest >>= fun found => pure (c :: found.1, found.2)) = _
    cases scanWith fuel rest <;> rfl
  · exact scanWith_escape fuel c rest

theorem blank_newline (level : Nat) : ∀ c ∈ newline level, isBlank c = true := by
  intro c member
  obtain rfl | blank := List.mem_cons.mp member
  · rfl
  · rw [List.eq_of_mem_replicate blank]
    rfl

/-- Each item and each member on a line of its own, two blanks further in than its container. -/
def indented : Layout where
  gap := newline
  space := [' ']
  escape := escape
  gapBlank := blank_newline
  spaceBlank := all_of rfl
  escapeRead := scanWith_escape

/-- Everything on one line without blanks. -/
def compact : Layout where
  gap _ := []
  space := []
  escape := escape
  gapBlank _ _ never := by cases never
  spaceBlank _ never := by cases never
  escapeRead := scanWith_escape

/-- Everything on one line without blanks, with characters past ASCII as they are. -/
def compactRaw : Layout where
  gap _ := []
  space := []
  escape := rawEscape
  gapBlank _ _ never := by cases never
  spaceBlank _ never := by cases never
  escapeRead := scanWith_raw

/-! Documents are read as they are printed. -/

mutual

/-- A document that a text can stand for: its floats are floating-point numbers, and its keys differ. -/
def Regular : Json → Prop
  | .float mantissa exponent => Printed shortest mantissa exponent
  | .arr items => RegularItems items
  | .obj fields => (Dict.keys fields).Nodup ∧ RegularMembers fields
  | _ => True

def RegularItems : List Json → Prop
  | [] => True
  | first :: others => Regular first ∧ RegularItems others

def RegularMembers : List (String × Json) → Prop
  | [] => True
  | (_, first) :: others => Regular first ∧ RegularMembers others

end

mutual

/-- The calls that reading a printed document takes. -/
def cost : Json → Nat
  | .arr items => 1 + costItems items
  | .obj fields => 1 + costMembers fields
  | _ => 1

def costItems : List Json → Nat
  | [] => 1
  | first :: others => 1 + cost first + costItems others

def costMembers : List (String × Json) → Nat
  | [] => 1
  | (_, first) :: others => 2 + cost first + costMembers others

end

theorem value_of_number {fuel : Nat} {cs : List Char} {result : Json × List Char} (read : number shortest cs = some result) :
    value shortest (fuel + 1) cs = some result := by
  cases cs with
  | nil => cases read
  | cons c rest =>
    have other (c : Char) (word : Text.isDigit c = false ∧ c ≠ '0' ∧ c ≠ '-') : number shortest (c :: rest) = none := by
      simp [number, wholePart, word.1, word.2]
    have differs {d : Char} (word : Text.isDigit d = false ∧ d ≠ '0' ∧ d ≠ '-') : c ≠ d := by
      rintro rfl
      rw [other c word] at read
      cases read
    rw [value, if_neg (differs (by decide)), if_neg (differs (by decide)), if_neg (differs (by decide)),
      if_neg (differs (by decide)), if_neg (differs (by decide)), if_neg (differs (by decide)), read]

/-- What is read as a document begins neither with a blank nor with a closing bracket. -/
theorem value_head {fuel : Nat} {cs : List Char} {result : Json × List Char} (read : value shortest fuel cs = some result) :
    ∃ c rest, cs = c :: rest ∧ isBlank c = false ∧ c ≠ ']' := by
  match fuel, cs with
  | 0, _ => cases read
  | _ + 1, [] => cases read
  | fuel + 1, c :: rest =>
    have none_ {c : Char} (word : Text.isDigit c = false ∧ c ≠ '0' ∧ c ≠ '-' ∧ c ≠ '"' ∧ c ≠ '\x7b' ∧ c ≠ '[' ∧ c ≠ 'n' ∧ c ≠ 't' ∧
        c ≠ 'f') : value shortest (fuel + 1) (c :: rest) = none := by
      obtain ⟨digit, zero, minus, quote, brace, bracket, n, t, f⟩ := word
      rw [value, if_neg quote, if_neg brace, if_neg bracket, if_neg n, if_neg t, if_neg f]
      simp [number, wholePart, digit, zero, minus]
    have differs {d : Char} (word : Text.isDigit d = false ∧ d ≠ '0' ∧ d ≠ '-' ∧ d ≠ '"' ∧ d ≠ '\x7b' ∧ d ≠ '[' ∧ d ≠ 'n' ∧ d ≠ 't' ∧
        d ≠ 'f') : c ≠ d := by
      rintro rfl
      rw [none_ word] at read
      cases read
    refine ⟨c, rest, rfl, ?_, differs (by decide)⟩
    simp [isBlank, @differs ' ' (by decide), @differs '\t' (by decide), @differs '\n' (by decide), @differs '\r' (by decide)]

theorem skip_blanks {blanks : List Char} (each : ∀ d ∈ blanks, isBlank d = true) {c : Char} (dark : isBlank c = false)
    (rest : List Char) : skip (blanks ++ c :: rest) = c :: rest := by
  rw [skip, List.dropWhile_append_of_pos each, List.dropWhile_cons_of_neg (by simp [dark])]

theorem skip_dark {c : Char} (dark : isBlank c = false) (rest : List Char) : skip (c :: rest) = c :: rest := by
  rw [skip, List.dropWhile_cons_of_neg (by simp [dark])]

theorem stops_of_blank {c : Char} (blank : isBlank c = true) (rest : List Char) : Stops (c :: rest) := by
  intro d next
  cases next
  simp only [isBlank, Bool.or_eq_true, beq_iff_eq] at blank
  obtain ((rfl | rfl) | rfl) | rfl := blank <;> decide

/-- Blanks are nothing that a number goes on with. -/
theorem stops_blanks {blanks rest : List Char} (each : ∀ c ∈ blanks, isBlank c = true) (stops : Stops rest) : Stops (blanks ++ rest) := by
  cases blanks with
  | nil => exact stops
  | cons c blanks => exact stops_of_blank (each c List.mem_cons_self) _

theorem stops_close {c : Char} (close : c = ']' ∨ c = '\x7d') (rest : List Char) : Stops (c :: rest) := by
  intro d next
  cases next
  obtain rfl | rfl := close <;> decide

theorem stops_comma (rest : List Char) : Stops (',' :: rest) := by
  intro c next
  cases next
  decide

variable {shortest}

/-- A printed key with its document, up to what follows the document. -/
theorem member_printed {key : String} {found : Json} {fuel : Nat} {text rest : List Char}
    (read : value shortest fuel (text ++ rest) = some (found, rest)) :
    member shortest (fuel + 1) (spelled layout key ++ ':' :: (layout.space ++ (text ++ rest))) = some ((key, found), rest) := by
  obtain ⟨c, after, begins, dark, -⟩ := value_head shortest read
  have quote : spelled layout key ++ ':' :: (layout.space ++ (text ++ rest)) =
      '"' :: (key.toList.flatMap layout.escape ++ '"' :: ':' :: (layout.space ++ (text ++ rest))) := by
    simp [spelled]
  have behind : skip (layout.space ++ (text ++ rest)) = text ++ rest := by
    rw [begins]
    exact skip_blanks layout.spaceBlank dark after
  have colon : skip (':' :: (layout.space ++ (text ++ rest))) = ':' :: (layout.space ++ (text ++ rest)) := skip_dark (by decide) _
  rw [quote, member]
  simp only [expect, if_true, Option.bind_eq_bind, Option.bind_some, scan_spelled, colon, behind, read, Option.pure_def]

theorem set_fresh {fields : Dict} {key : String} (fresh : key ∉ fields.keys) (found : Json) :
    fields.set key found = fields ++ [(key, found)] := by
  induction fields with
  | nil => rfl
  | cons entry rest ih =>
    obtain ⟨name, old⟩ := entry
    simp only [Dict.keys, List.map_cons, List.mem_cons, not_or] at fresh
    rw [Dict.set, if_neg (Ne.symm fresh.1), ih fresh.2]
    rfl

/-- Members under different keys are collected as they are. -/
theorem collected_self {fields : List (String × Json)} (distinct : (Dict.keys fields).Nodup) : collected fields = .obj fields := by
  have each (acc : Dict) : (Dict.keys (acc ++ fields)).Nodup → Dict.update acc fields = acc ++ fields := by
    induction fields generalizing acc with
    | nil => simp [Dict.update]
    | cons entry rest ih =>
      obtain ⟨key, found⟩ := entry
      intro whole
      have fresh : key ∉ Dict.keys acc := by
        simp only [Dict.keys, List.map_append, List.map_cons, List.nodup_append] at whole
        exact fun member => whole.2.2 key member key List.mem_cons_self rfl
      have next := ih (List.nodup_cons.mp distinct).2 (acc ++ [(key, found)]) (by rwa [List.append_assoc])
      rw [List.append_assoc, List.singleton_append, ← set_fresh fresh] at next
      exact next
  exact congrArg Json.obj (each [] distinct)

theorem stops_items (level : Nat) (others : List Json) (rest : List Char) : Stops (prettyItems layout level others ++ rest) := by
  cases others with
  | nil =>
    rw [prettyItems, List.append_assoc]
    exact stops_blanks (layout.gapBlank level) (stops_close (.inl rfl) rest)
  | cons first others =>
    rw [prettyItems, List.cons_append, List.cons_append, List.cons_append]
    exact stops_comma _

theorem stops_members (level : Nat) (others : List (String × Json)) (rest : List Char) : Stops (prettyMembers layout level others ++ rest) := by
  cases others with
  | nil =>
    rw [prettyMembers, List.append_assoc]
    exact stops_blanks (layout.gapBlank level) (stops_close (.inr rfl) rest)
  | cons entry others =>
    obtain ⟨key, first⟩ := entry
    rw [prettyMembers, List.cons_append, List.cons_append, List.cons_append, List.cons_append]
    exact stops_comma _

theorem expect_ne {c d : Char} (other : d ≠ c) (rest : List Char) : expect c (d :: rest) = none := if_neg other

theorem expect_self (c : Char) (rest : List Char) : expect c (c :: rest) = some rest := if_pos rfl

mutual

/-- A printed document is read back, whatever number could not go on behind it. -/
theorem value_pretty : ∀ (found : Json), Regular shortest found → ∀ (level fuel : Nat) (rest : List Char), cost found ≤ fuel →
    Stops rest → value shortest fuel (pretty layout level found ++ rest) = some (found, rest)
  | .null, _, _, fuel + 1, rest, _, _ => by
    simp [pretty, value, keyword, Text.stripPrefix?]
  | .bool true, _, _, fuel + 1, rest, _, _ => by
    simp [pretty, value, keyword, Text.stripPrefix?]
  | .bool false, _, _, fuel + 1, rest, _, _ => by
    simp [pretty, value, keyword, Text.stripPrefix?]
  | .int number, _, level, fuel + 1, rest, _, stops => by
    rw [pretty]
    exact value_of_number shortest (number_int shortest number stops)
  | .float mantissa exponent, regular, level, fuel + 1, rest, _, stops => by
    rw [pretty]
    exact value_of_number shortest (number_float shortest regular stops)
  | .str word, _, level, fuel + 1, rest, _, _ => by
    rw [pretty, spelled, Text.characters_eq]
    simp only [List.cons_append, List.append_assoc, List.nil_append, value, if_true, scan_spelled, Option.map_some]
  | .arr [], _, level, fuel + 1, rest, _, _ => by
    simp [pretty, value, expect, skip_dark (show isBlank ']' = false by decide)]
  | .arr (first :: others), regular, level, fuel + 1, rest, enough, _ => by
    rw [cost, costItems] at enough
    have head := value_pretty first regular.1 (level + 1) fuel (prettyItems layout level others ++ rest) (by omega)
      (stops_items layout level others rest)
    have tail := items_pretty others regular.2 level fuel rest (by omega)
    obtain ⟨c, after, begins, dark, other⟩ := value_head shortest head
    have inner : skip (layout.gap (level + 1) ++ (pretty layout (level + 1) first ++ (prettyItems layout level others ++ rest))) =
        pretty layout (level + 1) first ++ (prettyItems layout level others ++ rest) := by
      rw [begins, skip_blanks (layout.gapBlank (level + 1)) dark]
    have open_ : expect ']' (pretty layout (level + 1) first ++ (prettyItems layout level others ++ rest)) = none := by
      rw [begins, expect_ne other]
    rw [pretty, List.cons_append, List.cons_append, List.cons_append, List.append_assoc, List.append_assoc, value,
      if_neg (by decide), if_neg (by decide), if_pos rfl, inner, open_]
    simp only [head, tail, Option.bind_eq_bind, Option.bind_some, Option.pure_def]
  | .obj [], _, level, fuel + 1, rest, _, _ => by
    simp [pretty, value, expect, skip_dark (show isBlank '\x7d' = false by decide)]
  | .obj ((key, first) :: others), regular, level, fuel + 1, rest, enough, _ => by
    rw [cost, costMembers] at enough
    obtain ⟨more, rfl⟩ : ∃ more, fuel = more + 1 := ⟨fuel - 1, by omega⟩
    have head := @member_printed shortest layout key _ _ _ _ (value_pretty first regular.2.1 (level + 1) more (prettyMembers layout level others ++ rest)
      (by omega) (stops_members layout level others rest))
    have tail := members_pretty others regular.2.2 level (more + 1) rest (by omega)
    have inner : skip (layout.gap (level + 1) ++ (spelled layout key ++ ':' :: (layout.space ++ (pretty layout (level + 1) first ++
        (prettyMembers layout level others ++ rest))))) =
        spelled layout key ++ ':' :: (layout.space ++ (pretty layout (level + 1) first ++ (prettyMembers layout level others ++ rest))) :=
      skip_blanks (layout.gapBlank (level + 1)) (show isBlank '"' = false by decide) _
    have open_ : expect '\x7d' (spelled layout key ++ ':' :: (layout.space ++ (pretty layout (level + 1) first ++ (prettyMembers layout level others ++ rest)))) = none :=
      expect_ne (by decide) _
    rw [pretty]
    simp only [List.cons_append, List.append_assoc]
    rw [value, if_neg (by decide), if_pos rfl, inner, open_]
    simp only [head, tail, Option.bind_eq_bind, Option.bind_some, Option.pure_def, collected_self regular.1]
  | found, _, level, 0, rest, enough, _ => by
    cases found <;> simp [cost] at enough

theorem items_pretty : ∀ (others : List Json), RegularItems shortest others → ∀ (level fuel : Nat) (rest : List Char),
    costItems others ≤ fuel → items shortest fuel (prettyItems layout level others ++ rest) = some (others, rest)
  | [], _, level, fuel + 1, rest, _ => by
    rw [prettyItems, items, List.append_assoc, List.singleton_append, skip_blanks (layout.gapBlank level) (by decide)]
    rfl
  | first :: others, regular, level, fuel + 1, rest, enough => by
    rw [costItems] at enough
    have head := value_pretty first regular.1 (level + 1) fuel (prettyItems layout level others ++ rest) (by omega)
      (stops_items layout level others rest)
    have tail := items_pretty others regular.2 level fuel rest (by omega)
    obtain ⟨c, after, begins, dark, -⟩ := value_head shortest head
    have inner : skip (layout.gap (level + 1) ++ (pretty layout (level + 1) first ++ (prettyItems layout level others ++ rest))) =
        pretty layout (level + 1) first ++ (prettyItems layout level others ++ rest) := by
      rw [begins, skip_blanks (layout.gapBlank (level + 1)) dark]
    rw [prettyItems, List.cons_append, List.cons_append, List.cons_append, List.append_assoc, List.append_assoc, items,
      skip_dark (by decide), expect_ne (by decide), expect_self]
    simp only [inner, head, tail, Option.bind_eq_bind, Option.bind_some, Option.pure_def]
  | others, _, level, 0, rest, enough => by
    cases others <;> simp [costItems] at enough

theorem members_pretty : ∀ (others : List (String × Json)), RegularMembers shortest others → ∀ (level fuel : Nat) (rest : List Char),
    costMembers others ≤ fuel → members shortest fuel (prettyMembers layout level others ++ rest) = some (others, rest)
  | [], _, level, fuel + 1, rest, _ => by
    rw [prettyMembers, members, List.append_assoc, List.singleton_append, skip_blanks (layout.gapBlank level) (by decide)]
    rfl
  | (key, first) :: others, regular, level, fuel + 1, rest, enough => by
    rw [costMembers] at enough
    obtain ⟨more, rfl⟩ : ∃ more, fuel = more + 1 := ⟨fuel - 1, by omega⟩
    have head := @member_printed shortest layout key _ _ _ _ (value_pretty first regular.1 (level + 1) more (prettyMembers layout level others ++ rest)
      (by omega) (stops_members layout level others rest))
    have tail := members_pretty others regular.2 level (more + 1) rest (by omega)
    have inner : skip (layout.gap (level + 1) ++ (spelled layout key ++ ':' :: (layout.space ++ (pretty layout (level + 1) first ++
        (prettyMembers layout level others ++ rest))))) =
        spelled layout key ++ ':' :: (layout.space ++ (pretty layout (level + 1) first ++ (prettyMembers layout level others ++ rest))) :=
      skip_blanks (layout.gapBlank (level + 1)) (show isBlank '"' = false by decide) _
    rw [prettyMembers]
    simp only [List.cons_append, List.append_assoc]
    rw [members, skip_dark (by decide), expect_ne (by decide), expect_self]
    simp only [inner, head, tail, Option.bind_eq_bind, Option.bind_some, Option.pure_def]
  | others, _, level, 0, rest, enough => by
    cases others <;> simp [costMembers] at enough

end

/-! The whole text of a document is read. -/

theorem pretty_pos {found : Json} (regular : Regular shortest found) (level : Nat) : 1 ≤ (pretty layout level found).length := by
  have read := value_pretty layout found regular level (cost found) [] le_rfl fun _ next => by cases next
  obtain ⟨c, rest, begins, -⟩ := value_head shortest read
  rw [List.append_nil] at begins
  rw [begins, List.length_cons]
  exact Nat.le_add_left 1 _

mutual

theorem cost_le : ∀ (found : Json), Regular shortest found → ∀ (level : Nat), cost found ≤ 2 * (pretty layout level found).length
  | .null, regular, level => (pretty_pos layout regular level).trans (Nat.le_mul_of_pos_left _ Nat.two_pos)
  | .bool _, regular, level => (pretty_pos layout regular level).trans (Nat.le_mul_of_pos_left _ Nat.two_pos)
  | .int _, regular, level => (pretty_pos layout regular level).trans (Nat.le_mul_of_pos_left _ Nat.two_pos)
  | .float _ _, regular, level => (pretty_pos layout regular level).trans (Nat.le_mul_of_pos_left _ Nat.two_pos)
  | .str _, regular, level => (pretty_pos layout regular level).trans (Nat.le_mul_of_pos_left _ Nat.two_pos)
  | .arr [], _, _ => by simp [cost, costItems, pretty]
  | .arr (first :: others), regular, level => by
    have head := cost_le first regular.1 (level + 1)
    have tail := costItems_le others regular.2 level
    simp only [cost, costItems, pretty, List.length_append, List.length_cons]
    omega
  | .obj [], _, _ => by simp [cost, costMembers, pretty]
  | .obj ((key, first) :: others), regular, level => by
    have head := cost_le first regular.2.1 (level + 1)
    have tail := costMembers_le others regular.2.2 level
    simp only [cost, costMembers, pretty, List.length_append, List.length_cons]
    omega

theorem costItems_le : ∀ (others : List Json), RegularItems shortest others → ∀ (level : Nat),
    costItems others ≤ 2 * (prettyItems layout level others).length
  | [], _, level => by
    simp only [costItems, prettyItems, List.length_append, List.length_cons]
    omega
  | first :: others, regular, level => by
    have head := cost_le first regular.1 (level + 1)
    have tail := costItems_le others regular.2 level
    simp only [costItems, prettyItems, List.length_append, List.length_cons]
    omega

theorem costMembers_le : ∀ (others : List (String × Json)), RegularMembers shortest others → ∀ (level : Nat),
    costMembers others ≤ 2 * (prettyMembers layout level others).length
  | [], _, level => by
    simp only [costMembers, prettyMembers, List.length_append, List.length_cons]
    omega
  | (key, first) :: others, regular, level => by
    have head := cost_le first regular.1 (level + 1)
    have tail := costMembers_le others regular.2 level
    simp only [costMembers, prettyMembers, List.length_append, List.length_cons]
    omega

end

/-- A printed document is all that a text consists of, whatever blanks stand behind it. -/
theorem loads_pretty_blanks {found : Json} (regular : Regular shortest found) {blanks : List Char}
    (each : ∀ c ∈ blanks, isBlank c = true) : loads shortest (pretty layout 0 found ++ blanks) = some found := by
  have enough := cost_le layout found regular 0
  have stops : Stops (blanks ++ []) := stops_blanks each fun _ next => by cases next
  rw [List.append_nil] at stops
  have long : (pretty layout 0 found).length ≤ (pretty layout 0 found ++ blanks).length := by
    rw [List.length_append]
    exact Nat.le_add_right _ _
  have read := value_pretty layout found regular 0 (2 * (pretty layout 0 found ++ blanks).length + 1) blanks (by omega) stops
  obtain ⟨c, rest, begins, dark, -⟩ := value_head shortest read
  have start : skip (pretty layout 0 found ++ blanks) = pretty layout 0 found ++ blanks := by rw [begins, skip_dark dark]
  have behind : (blanks ++ []).dropWhile isBlank = ([] : List Char).dropWhile isBlank := List.dropWhile_append_of_pos each
  rw [List.append_nil] at behind
  rw [loads, start, read]
  change (if (skip blanks).isEmpty then pure found else none) = some found
  rw [skip, behind]
  rfl

/-- A printed document is all that its text consists of. -/
theorem loads_pretty {found : Json} (regular : Regular shortest found) : loads shortest (pretty layout 0 found) = some found := by
  have none_ : ∀ c ∈ ([] : List Char), isBlank c = true := fun _ never => by cases never
  have read := loads_pretty_blanks layout regular none_
  rwa [List.append_nil] at read

/-! Sorting the keys leaves the document the same but for the order of its members. -/

mutual

/-- The same document: the members of an object have no order. -/
inductive Same : Json → Json → Prop
  | plain (found : Json) : Same found found
  | arr {items others : List Json} : SameItems items others → Same (.arr items) (.arr others)
  | obj {fields others moved : List (String × Json)} : SameMembers fields others → fields.Perm moved → Same (.obj moved) (.obj others)

inductive SameItems : List Json → List Json → Prop
  | nil : SameItems [] []
  | cons {first second : Json} {items others : List Json} : Same first second → SameItems items others →
      SameItems (first :: items) (second :: others)

inductive SameMembers : List (String × Json) → List (String × Json) → Prop
  | nil : SameMembers [] []
  | cons {key : String} {first second : Json} {fields others : List (String × Json)} : Same first second → SameMembers fields others →
      SameMembers ((key, first) :: fields) ((key, second) :: others)

end

mutual

theorem same_sortKeys : ∀ found : Json, Same (sortKeys found) found
  | .null => .plain _
  | .bool _ => .plain _
  | .int _ => .plain _
  | .float _ _ => .plain _
  | .str _ => .plain _
  | .arr items => .arr (same_sortItems items)
  | .obj fields => .obj (same_sortMembers fields) (List.perm_insertionSort _ _).symm

theorem same_sortItems : ∀ items : List Json, SameItems (sortItems items) items
  | [] => .nil
  | first :: others => .cons (same_sortKeys first) (same_sortItems others)

theorem same_sortMembers : ∀ fields : List (String × Json), SameMembers (sortMembers fields) fields
  | [] => .nil
  | (_, first) :: others => .cons (same_sortKeys first) (same_sortMembers others)

end

theorem regularMembers_iff {fields : List (String × Json)} :
    RegularMembers shortest fields ↔ ∀ entry ∈ fields, Regular shortest entry.2 := by
  induction fields with
  | nil => simp [RegularMembers]
  | cons entry others ih =>
    obtain ⟨key, first⟩ := entry
    rw [RegularMembers, ih, List.forall_mem_cons]

theorem keys_sortMembers (fields : List (String × Json)) : Dict.keys (sortMembers fields) = Dict.keys fields := by
  induction fields with
  | nil => rfl
  | cons entry others ih =>
    obtain ⟨key, first⟩ := entry
    exact congrArg (key :: ·) ih

mutual

theorem regular_sortKeys : ∀ found : Json, Regular shortest found → Regular shortest (sortKeys found)
  | .null, _ => trivial
  | .bool _, _ => trivial
  | .int _, _ => trivial
  | .float _ _, regular => regular
  | .str _, _ => trivial
  | .arr items, regular => regular_sortItems items regular
  | .obj fields, regular => by
    have moved := List.perm_insertionSort (fun a b : String × Json => a.1 ≤ b.1) (sortMembers fields)
    have members := regularMembers_iff.mp (regular_sortMembers fields regular.2)
    refine ⟨?_, regularMembers_iff.mpr fun entry member => members entry (moved.mem_iff.mp member)⟩
    have keys : (Dict.keys ((sortMembers fields).insertionSort fun a b => a.1 ≤ b.1)).Perm (Dict.keys fields) := by
      rw [← keys_sortMembers fields]
      exact moved.map Prod.fst
    exact keys.nodup_iff.mpr regular.1

theorem regular_sortItems : ∀ items : List Json, RegularItems shortest items → RegularItems shortest (sortItems items)
  | [], _ => trivial
  | first :: others, regular => ⟨regular_sortKeys first regular.1, regular_sortItems others regular.2⟩

theorem regular_sortMembers : ∀ fields : List (String × Json), RegularMembers shortest fields →
    RegularMembers shortest (sortMembers fields)
  | [], _ => trivial
  | (_, first) :: others, regular => ⟨regular_sortKeys first regular.1, regular_sortMembers others regular.2⟩

end

/-- A document that was written is read back. -/
theorem loads_dumps {document : Json} (regular : Regular shortest document) :
    loads shortest (dumps layout document) = some (sortKeys document) :=
  loads_pretty layout (regular_sortKeys document regular)

/-! The characters of a printed document. -/

/-- A printable character of ASCII. -/
def printable (c : Char) : Bool := 32 ≤ c.toNat && c.toNat ≤ 126

theorem printable_of_isDigit {c : Char} (digit : Text.isDigit c = true) : printable c = true := by
  simp only [Text.isDigit, printable, Bool.and_eq_true, decide_eq_true_eq, Char.le_def, UInt32.le_iff_toNat_le] at digit ⊢
  have low : ('0' : Char).val.toNat = 48 := rfl
  have high : ('9' : Char).val.toNat = 57 := rfl
  have same : c.toNat = c.val.toNat := rfl
  omega

theorem printable_unicodeEscape (n : Nat) : ∀ c ∈ unicodeEscape n, printable c = true := by
  have digit : ∀ m < 16, printable (hexDigit m) = true := by decide
  have each (m : Nat) : printable (hexDigit (m % 16)) = true := digit _ (Nat.mod_lt m (by decide))
  simp only [unicodeEscape, List.forall_mem_cons, each, true_and]
  exact ⟨by decide, by decide, fun _ none_ => by cases none_⟩

theorem printable_escape (c : Char) : ∀ d ∈ escape c, printable d = true := by
  refine escape_induction (motive := fun code => ∀ d ∈ code, printable d = true) (fun code named _ => ?_) (fun _ _ plain => ?_)
    (fun _ => ?_) (fun _ => ?_)
  · have letters : ∀ code ∈ ['"', '\\', 'n', 'r', 't', 'b', 'f'], printable code = true := all_of rfl
    exact List.forall_mem_cons.mpr ⟨rfl, List.forall_mem_singleton.mpr (letters code named)⟩
  · intro d member
    rw [List.mem_singleton.mp member]
    exact plain
  · exact printable_unicodeEscape _
  · intro d member
    obtain high | low := List.mem_append.mp member
    · exact printable_unicodeEscape _ d high
    · exact printable_unicodeEscape _ d low

theorem printable_spelled (text : String) : ∀ c ∈ spelled indented text, printable c = true := by
  intro c member
  rw [spelled, List.cons_append, List.mem_cons, List.mem_append, List.mem_flatMap, List.mem_singleton] at member
  obtain rfl | ⟨d, -, inner⟩ | rfl := member
  · decide
  · exact printable_escape d c inner
  · decide

theorem printable_int (number : Int) : ∀ c ∈ (toString number).toList, printable c = true := by
  cases number with
  | ofNat n =>
    have digits : (toString (Int.ofNat n)).toList = Nat.toDigits 10 n := Nat.toList_repr
    rw [digits]
    exact fun c member => printable_of_isDigit (isDigit_toDigits member)
  | negSucc n =>
    have digits : (toString (Int.negSucc n)).toList = '-' :: Nat.toDigits 10 (n + 1) := by
      change ("-" ++ Nat.repr (n + 1)).toList = _
      rw [String.toList_append, Nat.toList_repr]
      rfl
    rw [digits, List.forall_mem_cons]
    exact ⟨by decide, fun c member => printable_of_isDigit (isDigit_toDigits member)⟩

theorem printable_float (mantissa exponent : Int) : ∀ c ∈ (floatText mantissa exponent).toList, printable c = true := by
  have each : ∀ c ∈ (toString mantissa.natAbs).toList, printable c = true := by
    have digits : (toString mantissa.natAbs).toList = Nat.toDigits 10 mantissa.natAbs := Nat.toList_repr
    rw [digits]
    exact fun c member => printable_of_isDigit (isDigit_toDigits member)
  have zeros (count : Nat) : ∀ c ∈ List.replicate count '0', printable c = true := by
    intro c member
    rw [List.eq_of_mem_replicate member]
    decide
  have power (n : Nat) : ∀ c ∈ (Text.padded 2 n).toList, printable c = true := fun c member => printable_of_isDigit (isDigit_padded c member)
  rw [floatText, floatText_toList]
  generalize (toString mantissa.natAbs).toList = ds at each
  have front (count : Nat) : ∀ c ∈ ds.take count, printable c = true := fun c member => each c (List.mem_of_mem_take member)
  have back (count : Nat) : ∀ c ∈ ds.drop count, printable c = true := fun c member => each c (List.mem_of_mem_drop member)
  have sign : ∀ c ∈ (if decide (mantissa < 0) then ['-'] else []), printable c = true := by
    split_ifs <;> exact all_of rfl
  dsimp only
  refine List.forall_mem_append.mpr ⟨sign, ?_⟩
  split_ifs
  · exact all_of rfl
  · exact List.forall_mem_append.mpr ⟨List.forall_mem_append.mpr ⟨all_of rfl, zeros _⟩, each⟩
  · exact List.forall_mem_append.mpr ⟨List.forall_mem_append.mpr ⟨each, zeros _⟩, all_of rfl⟩
  · exact List.forall_mem_append.mpr ⟨List.forall_mem_append.mpr ⟨front _, all_of rfl⟩, back _⟩
  all_goals refine List.forall_mem_append.mpr ⟨List.forall_mem_append.mpr ⟨List.forall_mem_append.mpr ⟨front _, ?_⟩, ?_⟩, power _⟩
  · exact all_of rfl
  · exact all_of rfl
  · exact all_of rfl
  · exact all_of rfl
  · exact List.forall_mem_cons.mpr ⟨by decide, back 1⟩
  · exact all_of rfl
  · exact List.forall_mem_cons.mpr ⟨by decide, back 1⟩
  · exact all_of rfl

/-- Lines of printable characters, of which none but the first begins with a dash. -/
structure Hanging (cs : List Char) : Prop where
  plain : ∀ c ∈ cs, printable c = true ∨ c = '\n'
  inner : ∀ before behind, cs = before ++ '\n' :: behind → ∃ c rest, behind = c :: rest ∧ c ≠ '-'

theorem Hanging.append {first second : List Char} (left : Hanging first) (right : Hanging second) : Hanging (first ++ second) where
  plain := List.forall_mem_append.mpr ⟨left.plain, right.plain⟩
  inner before behind spelled := by
    obtain ⟨more, rfl, tail⟩ | ⟨more, rfl, tail⟩ := List.append_eq_append_iff.mp spelled
    · exact right.inner more behind tail
    · cases more with
      | nil =>
        exact right.inner [] behind tail.symm
      | cons c rest =>
        rw [List.cons_append, List.cons.injEq] at tail
        obtain ⟨rfl, rfl⟩ := tail
        obtain ⟨d, others, rfl, other⟩ := left.inner before rest rfl
        exact ⟨d, others ++ second, rfl, other⟩

theorem hanging_printable {cs : List Char} (each : ∀ c ∈ cs, printable c = true) : Hanging cs where
  plain c member := .inl (each c member)
  inner before behind spelled := by
    have feed := each '\n' (by simp [spelled])
    cases feed

theorem hanging_feed {c : Char} {cs : List Char} (other : c ≠ '-') (each : ∀ d ∈ c :: cs, printable d = true) :
    Hanging ('\n' :: c :: cs) where
  plain := List.forall_mem_cons.mpr ⟨.inr rfl, fun d member => .inl (each d member)⟩
  inner before behind spelled := by
    cases before with
    | nil =>
      rw [List.nil_append, List.cons.injEq] at spelled
      exact ⟨c, cs, spelled.2.symm, other⟩
    | cons d before =>
      rw [List.cons_append, List.cons.injEq] at spelled
      exact (hanging_printable each).inner before behind spelled.2

theorem printable_blanks (count : Nat) : ∀ c ∈ List.replicate count ' ', printable c = true := by
  intro c member
  rw [List.eq_of_mem_replicate member]
  decide

theorem hanging_open (level : Nat) : Hanging (newline (level + 1)) :=
  hanging_feed (by decide) (printable_blanks (2 * level + 1 + 1))

theorem hanging_single {c : Char} (plain : printable c = true) : Hanging [c] :=
  hanging_printable (List.forall_mem_singleton.mpr plain)

theorem hanging_cons {c : Char} {cs : List Char} (plain : printable c = true) (hanging : Hanging cs) : Hanging (c :: cs) :=
  (hanging_single plain).append hanging

theorem hanging_close (level : Nat) {c : Char} (other : c ≠ '-') (plain : printable c = true) : Hanging (newline level ++ [c]) := by
  cases level with
  | zero => exact hanging_feed other (List.forall_mem_singleton.mpr plain)
  | succ level => exact (hanging_open level).append (hanging_single plain)

/-- A key on a line of its own, up to its document. -/
theorem hanging_key (level : Nat) (key : String) {cs : List Char} (hanging : Hanging cs) :
    Hanging (newline (level + 1) ++ (spelled indented key ++ ':' :: ' ' :: cs)) :=
  (hanging_open level).append ((hanging_printable (printable_spelled key)).append
    (hanging_cons (by decide) (hanging_cons (by decide) hanging)))

mutual

theorem hanging_pretty : ∀ (found : Json) (level : Nat), Hanging (pretty indented level found)
  | .null, _ => hanging_printable (all_of (by rw [pretty]; rfl))
  | .bool true, _ => hanging_printable (all_of (by rw [pretty]; rfl))
  | .bool false, _ => hanging_printable (all_of (by rw [pretty]; rfl))
  | .int number, _ => hanging_printable (by rw [pretty]; exact printable_int number)
  | .float mantissa exponent, _ => hanging_printable (by rw [pretty]; exact printable_float mantissa exponent)
  | .str word, _ => hanging_printable (by rw [pretty]; exact printable_spelled word)
  | .arr [], _ => hanging_printable (all_of (by rw [pretty]; rfl))
  | .arr (first :: others), level => by
    rw [pretty]
    exact ((hanging_cons (by decide) (hanging_open level)).append (hanging_pretty first (level + 1))).append (hanging_items others level)
  | .obj [], _ => hanging_printable (all_of (by rw [pretty]; rfl))
  | .obj ((key, first) :: others), level => by
    rw [pretty]
    simp only [List.cons_append, List.append_assoc]
    exact hanging_cons (by decide) (hanging_key level key ((hanging_pretty first (level + 1)).append (hanging_members others level)))

theorem hanging_items : ∀ (others : List Json) (level : Nat), Hanging (prettyItems indented level others)
  | [], level => hanging_close level (by decide) (by decide)
  | first :: others, level => by
    rw [prettyItems]
    exact ((hanging_cons (by decide) (hanging_open level)).append (hanging_pretty first (level + 1))).append (hanging_items others level)

theorem hanging_members : ∀ (others : List (String × Json)) (level : Nat), Hanging (prettyMembers indented level others)
  | [], level => hanging_close level (by decide) (by decide)
  | (key, first) :: others, level => by
    rw [prettyMembers]
    simp only [List.cons_append, List.append_assoc]
    exact hanging_cons (by decide) (hanging_key level key ((hanging_pretty first (level + 1)).append (hanging_members others level)))

end

/-! The compact texts. -/

/-- No blanks anywhere. -/
structure Tight : Prop where
  gap : ∀ level, layout.gap level = []
  space : layout.space = []

variable {layout}

theorem pretty_tight_items (tight : Tight layout) (level : Nat) (others : List Json) :
    prettyItems layout level others = others.flatMap (fun item => ',' :: pretty layout (level + 1) item) ++ [']'] := by
  induction others with
  | nil => rw [prettyItems, tight.gap]; rfl
  | cons first others ih =>
    rw [prettyItems, tight.gap, ih]
    simp

theorem pretty_tight_members (tight : Tight layout) (level : Nat) (others : List (String × Json)) :
    prettyMembers layout level others =
      others.flatMap (fun entry => ',' :: (spelled layout entry.1 ++ ':' :: pretty layout (level + 1) entry.2)) ++ ['\x7d'] := by
  induction others with
  | nil => rw [prettyMembers, tight.gap]; rfl
  | cons entry others ih =>
    obtain ⟨key, first⟩ := entry
    rw [prettyMembers, tight.gap, tight.space, ih]
    simp

theorem intercalate_cons (first : List Char) (others : List (List Char)) :
    [','].intercalate (first :: others) = first ++ others.flatMap (fun part => ',' :: part) := by
  induction others generalizing first with
  | nil => rw [List.intercalate_singleton, List.flatMap_nil, List.append_nil]
  | cons second others ih => rw [List.intercalate_cons_cons, ih, List.flatMap_cons, List.append_assoc, List.singleton_append, List.cons_append]

theorem pretty_tight_arr (tight : Tight layout) (level : Nat) (items : List Json) :
    pretty layout level (.arr items) = '[' :: [','].intercalate (items.map (pretty layout (level + 1))) ++ [']'] := by
  cases items with
  | nil => rfl
  | cons first others =>
    rw [pretty, tight.gap, pretty_tight_items tight, List.map_cons, intercalate_cons, List.flatMap_map]
    simp

theorem pretty_tight_obj (tight : Tight layout) (level : Nat) (fields : List (String × Json)) :
    pretty layout level (.obj fields) =
      '\x7b' :: [','].intercalate (fields.map (fun entry => spelled layout entry.1 ++ ':' :: pretty layout (level + 1) entry.2)) ++ ['\x7d'] := by
  cases fields with
  | nil => rfl
  | cons entry others =>
    obtain ⟨key, first⟩ := entry
    rw [pretty, tight.gap, tight.space, pretty_tight_members tight, List.map_cons, intercalate_cons, List.flatMap_map]
    simp

theorem sortItems_eq (items : List Json) : sortItems items = items.map sortKeys := by
  induction items with
  | nil => rfl
  | cons first others ih => rw [sortItems, ih, List.map_cons]

theorem sortMembers_eq (fields : List (String × Json)) : sortMembers fields = fields.map (fun entry => (entry.1, sortKeys entry.2)) := by
  induction fields with
  | nil => rfl
  | cons entry others ih =>
    obtain ⟨key, first⟩ := entry
    rw [sortMembers, ih, List.map_cons]

/-- A printer of documents that sorts members and leaves no blanks. -/
structure Prints (layout : Layout) (print : Json → List Char) : Prop where
  tight : Tight layout
  leaf : ∀ found : Json, found.isArr = false ∧ found.isObj = false → print found = pretty layout 0 found
  arr : ∀ items, print (.arr items) = '[' :: [','].intercalate (items.map print) ++ [']']
  obj : ∀ fields : List (String × Json), print (.obj fields) =
    '\x7b' :: [','].intercalate (((fields.map (fun entry => (entry.1, print entry.2))).insertionSort (fun a b => a.1 ≤ b.1)).map
      (fun entry => spelled layout entry.1 ++ ':' :: entry.2)) ++ ['\x7d']

variable {print : Json → List Char}

mutual

theorem prints_pretty (prints : Prints layout print) : ∀ (found : Json) (level : Nat), print found = pretty layout level (sortKeys found)
  | .null, level => by rw [prints.leaf .null ⟨rfl, rfl⟩]; simp only [sortKeys, pretty]
  | .bool value, level => by rw [prints.leaf (.bool value) ⟨rfl, rfl⟩]; simp only [sortKeys, pretty]
  | .int value, level => by rw [prints.leaf (.int value) ⟨rfl, rfl⟩]; simp only [sortKeys, pretty]
  | .float mantissa exponent, level => by rw [prints.leaf (.float mantissa exponent) ⟨rfl, rfl⟩]; simp only [sortKeys, pretty]
  | .str value, level => by rw [prints.leaf (.str value) ⟨rfl, rfl⟩]; simp only [sortKeys, pretty]
  | .arr items, level => by
    rw [prints.arr, sortKeys, sortItems_eq, pretty_tight_arr prints.tight, List.map_map, prints_items prints items (level + 1)]
    rfl
  | .obj fields, level => by
    rw [prints.obj, sortKeys, sortMembers_eq, pretty_tight_obj prints.tight, prints_members prints fields (level + 1)]
    have moved : ((fields.map fun entry => (entry.1, sortKeys entry.2)).insertionSort fun a b => a.1 ≤ b.1).map
          (fun entry => (entry.1, pretty layout (level + 1) entry.2)) =
        (fields.map fun entry => (entry.1, pretty layout (level + 1) (sortKeys entry.2))).insertionSort fun a b => a.1 ≤ b.1 := by
      rw [List.map_insertionSort (fun a b : String × Json => a.1 ≤ b.1) (fun a b : String × List Char => a.1 ≤ b.1) _ _
        fun a _ b _ => Iff.rfl, List.map_map]
      rfl
    rw [← moved, List.map_map]
    rfl

theorem prints_items (prints : Prints layout print) : ∀ (items : List Json) (level : Nat),
    items.map print = items.map (fun item => pretty layout level (sortKeys item))
  | [], _ => rfl
  | first :: others, level => by
    rw [List.map_cons, List.map_cons, prints_pretty prints first level, prints_items prints others level]

theorem prints_members (prints : Prints layout print) : ∀ (fields : List (String × Json)) (level : Nat),
    fields.map (fun entry => (entry.1, print entry.2)) = fields.map (fun entry => (entry.1, pretty layout level (sortKeys entry.2)))
  | [], _ => rfl
  | (key, first) :: others, level => by
    rw [List.map_cons, List.map_cons, prints_pretty prints first level, prints_members prints others level]

end

theorem prints_canonical : Prints compact canonical where
  tight := ⟨fun _ => rfl, rfl⟩
  leaf found leaf := by
    cases found with
    | arr items => cases leaf.1
    | obj fields => cases leaf.2
    | null | bool value | int value | float mantissa exponent | str value => rfl
  arr items := by rw [canonical, canonicalItems_eq]
  obj fields := by rw [canonical, canonicalFields_eq]; rfl

theorem prints_rawBytes : Prints compactRaw rawBytes where
  tight := ⟨fun _ => rfl, rfl⟩
  leaf found leaf := by
    cases found with
    | arr items => cases leaf.1
    | obj fields => cases leaf.2
    | null | bool value | int value | float mantissa exponent | str value => rfl
  arr items := by
    have each : rawItems items = items.map rawBytes := by
      induction items with
      | nil => rfl
      | cons first others ih => rw [rawItems, ih, List.map_cons]
    rw [rawBytes, each]
  obj fields := by
    have each : rawEntries fields = fields.map (fun entry => (entry.1, rawBytes entry.2)) := by
      induction fields with
      | nil => rfl
      | cons entry others ih =>
        obtain ⟨key, first⟩ := entry
        rw [rawEntries, ih, List.map_cons]
    rw [rawBytes, each]
    rfl

/-- What a printer prints is read back. -/
theorem loads_prints (prints : Prints layout print) {document : Json} (regular : Regular shortest document) :
    loads shortest (print document) = some (sortKeys document) := by
  rw [prints_pretty prints document 0]
  exact loads_dumps layout regular

/-- What a printer prints is read back, whatever blanks stand behind it. -/
theorem loads_prints_blanks (prints : Prints layout print) {document : Json} (regular : Regular shortest document)
    {blanks : List Char} (each : ∀ c ∈ blanks, isBlank c = true) : loads shortest (print document ++ blanks) = some (sortKeys document) := by
  rw [prints_pretty prints document 0]
  exact loads_pretty_blanks layout (regular_sortKeys document regular) each

/-- A layout without blanks that spells every character in printable ones prints a document in printable ones. -/
structure Plain (layout : Layout) : Prop where
  tight : Tight layout
  escape : ∀ c, ∀ d ∈ layout.escape c, printable d = true

theorem printable_plain_spelled (plain : Plain layout) (text : String) : ∀ c ∈ spelled layout text, printable c = true := by
  have inner : ∀ c ∈ (Text.characters text).flatMap layout.escape, printable c = true := by
    intro c member
    obtain ⟨d, -, inside⟩ := List.mem_flatMap.mp member
    exact plain.escape d c inside
  exact List.forall_mem_append.mpr ⟨List.forall_mem_cons.mpr ⟨by decide, inner⟩, all_of rfl⟩

mutual

theorem printable_pretty (plain : Plain layout) : ∀ (found : Json) (level : Nat), ∀ c ∈ pretty layout level found, printable c = true
  | .null, _ => all_of (by rw [pretty]; rfl)
  | .bool true, _ => all_of (by rw [pretty]; rfl)
  | .bool false, _ => all_of (by rw [pretty]; rfl)
  | .int number, _ => by
    rw [pretty]
    exact printable_int number
  | .float mantissa exponent, _ => by
    rw [pretty]
    exact printable_float mantissa exponent
  | .str word, _ => by
    rw [pretty]
    exact printable_plain_spelled plain word
  | .arr [], _ => all_of (by rw [pretty]; rfl)
  | .arr (first :: others), level => by
    rw [pretty, plain.tight.gap]
    exact List.forall_mem_append.mpr ⟨List.forall_mem_cons.mpr ⟨by decide, printable_pretty plain first (level + 1)⟩,
      printable_items plain others level⟩
  | .obj [], _ => all_of (by rw [pretty]; rfl)
  | .obj ((key, first) :: others), level => by
    rw [pretty, plain.tight.gap, plain.tight.space]
    simp only [List.append_assoc, List.cons_append, List.nil_append]
    exact List.forall_mem_cons.mpr ⟨by decide, List.forall_mem_append.mpr ⟨printable_plain_spelled plain key,
      List.forall_mem_cons.mpr ⟨by decide, List.forall_mem_append.mpr ⟨printable_pretty plain first (level + 1),
        printable_members plain others level⟩⟩⟩⟩

theorem printable_items (plain : Plain layout) : ∀ (others : List Json) (level : Nat), ∀ c ∈ prettyItems layout level others, printable c = true
  | [], level => by
    rw [prettyItems, plain.tight.gap]
    exact all_of rfl
  | first :: others, level => by
    rw [prettyItems, plain.tight.gap]
    exact List.forall_mem_append.mpr ⟨List.forall_mem_cons.mpr ⟨by decide, printable_pretty plain first (level + 1)⟩,
      printable_items plain others level⟩

theorem printable_members (plain : Plain layout) : ∀ (others : List (String × Json)) (level : Nat),
    ∀ c ∈ prettyMembers layout level others, printable c = true
  | [], level => by
    rw [prettyMembers, plain.tight.gap]
    exact all_of rfl
  | (key, first) :: others, level => by
    rw [prettyMembers, plain.tight.gap, plain.tight.space]
    simp only [List.append_assoc, List.cons_append, List.nil_append]
    exact List.forall_mem_cons.mpr ⟨by decide, List.forall_mem_append.mpr ⟨printable_plain_spelled plain key,
      List.forall_mem_cons.mpr ⟨by decide, List.forall_mem_append.mpr ⟨printable_pretty plain first (level + 1),
        printable_members plain others level⟩⟩⟩⟩

end

theorem printable_canonical (document : Json) : ∀ c ∈ canonical document, printable c = true := by
  rw [prints_pretty prints_canonical document 0]
  exact printable_pretty ⟨prints_canonical.tight, printable_escape⟩ (sortKeys document) 0

/-! What is read is a document that a text can stand for. -/

/-- The decimal that a number is rounded to is one that is read as it is printed. -/
def Faithful (shortest : Shortest) : Prop :=
  ∀ mantissa exponent, Printed shortest (shortest mantissa exponent).1 (shortest mantissa exponent).2

theorem number_regular (faithful : Faithful shortest) {cs rest : List Char} {found : Json} (read : number shortest cs = some (found, rest)) :
    Regular shortest found := by
  simp only [number, Option.bind_eq_bind, Option.bind_eq_some_iff, Option.pure_def] at read
  obtain ⟨whole, -, read⟩ := read
  split at read
  · cases read
    trivial
  · cases read
    exact faithful _ _

theorem nodup_set {fields : Dict} (distinct : (Dict.keys fields).Nodup) (key : String) (found : Json) :
    (Dict.keys (fields.set key found)).Nodup := by
  induction fields with
  | nil => exact List.nodup_singleton key
  | cons entry rest ih =>
    obtain ⟨name, old⟩ := entry
    obtain ⟨fresh, others⟩ := List.nodup_cons.mp distinct
    by_cases same : name = key
    · subst same
      rw [Dict.set, if_pos rfl]
      exact distinct
    · rw [Dict.set, if_neg same]
      refine List.nodup_cons.mpr ⟨fun member => ?_, ih others⟩
      obtain here | there := Dict.mem_keys_set.mp member
      · exact same here
      · exact fresh there

theorem regular_set {fields : Dict} (each : ∀ entry ∈ fields, Regular shortest entry.2) (key : String) {found : Json}
    (regular : Regular shortest found) : ∀ entry ∈ fields.set key found, Regular shortest entry.2 := by
  induction fields with
  | nil =>
    intro entry member
    rw [List.mem_singleton.mp member]
    exact regular
  | cons first rest ih =>
    obtain ⟨name, old⟩ := first
    rw [List.forall_mem_cons] at each
    by_cases same : name = key
    · rw [Dict.set, if_pos same]
      exact List.forall_mem_cons.mpr ⟨regular, each.2⟩
    · rw [Dict.set, if_neg same]
      exact List.forall_mem_cons.mpr ⟨each.1, ih each.2⟩

/-- The last of several members under a key is the one that is kept. -/
theorem regular_collected {members : List (String × Json)} (each : ∀ entry ∈ members, Regular shortest entry.2) :
    Regular shortest (collected members) := by
  have kept (acc : Dict) (distinct : (Dict.keys acc).Nodup) (regular : ∀ entry ∈ acc, Regular shortest entry.2) :
      (Dict.keys (Dict.update acc members)).Nodup ∧ ∀ entry ∈ Dict.update acc members, Regular shortest entry.2 := by
    induction members generalizing acc with
    | nil => exact ⟨distinct, regular⟩
    | cons first rest ih =>
      rw [List.forall_mem_cons] at each
      exact ih each.2 (acc.set first.1 first.2) (nodup_set distinct first.1 first.2) (regular_set regular first.1 each.1)
  obtain ⟨distinct, regular⟩ := kept [] List.nodup_nil (List.forall_mem_nil _)
  exact ⟨distinct, regularMembers_iff.mpr regular⟩

/-- What one call of a given depth reads. -/
structure ReadsRegular (shortest : Shortest) (fuel : Nat) : Prop where
  value : ∀ cs found rest, value shortest fuel cs = some (found, rest) → Regular shortest found
  items : ∀ cs found rest, items shortest fuel cs = some (found, rest) → RegularItems shortest found
  member : ∀ cs found rest, member shortest fuel cs = some (found, rest) → Regular shortest found.2
  members : ∀ cs found rest, members shortest fuel cs = some (found, rest) → ∀ entry ∈ found, Regular shortest entry.2

theorem readsRegular (faithful : Faithful shortest) (fuel : Nat) : ReadsRegular shortest fuel := by
  induction fuel with
  | zero => exact ⟨by simp [value], by simp [items], by simp [member], by simp [members]⟩
  | succ fuel ih =>
    refine ⟨fun cs found rest read => ?_, fun cs found rest read => ?_, fun cs found rest read => ?_, fun cs found rest read => ?_⟩
    · cases cs with
      | nil => cases read
      | cons c cs =>
        rw [value] at read
        split_ifs at read
        · obtain ⟨text, -, same⟩ := Option.map_eq_some_iff.mp read
          cases same
          trivial
        · cases close : expect '\x7d' (skip cs) with
          | some left =>
            rw [close] at read
            cases read
            exact ⟨List.nodup_nil, trivial⟩
          | none =>
            rw [close] at read
            simp only [Option.bind_eq_bind, Option.bind_eq_some_iff, Option.pure_def, Option.some.injEq, Prod.mk.injEq] at read
            obtain ⟨⟨first, behind⟩, head, ⟨others, left⟩, tail, same, -⟩ := read
            rw [← same]
            exact regular_collected (List.forall_mem_cons.mpr ⟨ih.member _ _ _ head, ih.members _ _ _ tail⟩)
        · cases close : expect ']' (skip cs) with
          | some left =>
            rw [close] at read
            cases read
            trivial
          | none =>
            rw [close] at read
            simp only [Option.bind_eq_bind, Option.bind_eq_some_iff, Option.pure_def, Option.some.injEq, Prod.mk.injEq] at read
            obtain ⟨⟨first, behind⟩, head, ⟨others, left⟩, tail, same, -⟩ := read
            rw [← same]
            exact ⟨ih.value _ _ _ head, ih.items _ _ _ tail⟩
        · obtain ⟨left, -, same⟩ := Option.map_eq_some_iff.mp read
          cases same
          trivial
        · obtain ⟨left, -, same⟩ := Option.map_eq_some_iff.mp read
          cases same
          trivial
        · obtain ⟨left, -, same⟩ := Option.map_eq_some_iff.mp read
          cases same
          trivial
        · exact number_regular faithful read
    · rw [items] at read
      cases close : expect ']' (skip cs) with
      | some left =>
        rw [close] at read
        cases read
        trivial
      | none =>
        rw [close] at read
        simp only [Option.bind_eq_bind, Option.bind_eq_some_iff, Option.pure_def, Option.some.injEq, Prod.mk.injEq] at read
        obtain ⟨comma, -, ⟨first, behind⟩, head, ⟨others, left⟩, tail, same, -⟩ := read
        rw [← same]
        exact ⟨ih.value _ _ _ head, ih.items _ _ _ tail⟩
    · simp only [member, Option.bind_eq_bind, Option.bind_eq_some_iff, Option.pure_def, Option.some.injEq, Prod.mk.injEq] at read
      obtain ⟨quote, -, ⟨key, behind⟩, -, colon, -, ⟨inner, left⟩, head, same, -⟩ := read
      rw [← same]
      exact ih.value _ _ _ head
    · rw [members] at read
      cases close : expect '\x7d' (skip cs) with
      | some left =>
        rw [close] at read
        cases read
        exact List.forall_mem_nil _
      | none =>
        rw [close] at read
        simp only [Option.bind_eq_bind, Option.bind_eq_some_iff, Option.pure_def, Option.some.injEq, Prod.mk.injEq] at read
        obtain ⟨comma, -, ⟨first, behind⟩, head, ⟨others, left⟩, tail, same, -⟩ := read
        rw [← same]
        exact List.forall_mem_cons.mpr ⟨ih.member _ _ _ head, ih.members _ _ _ tail⟩

theorem regular_loads (faithful : Faithful shortest) {text : List Char} {found : Json} (read : loads shortest text = some found) :
    Regular shortest found := by
  simp only [loads, Option.bind_eq_bind, Option.bind_eq_some_iff] at read
  obtain ⟨⟨document, rest⟩, inner, whole⟩ := read
  split_ifs at whole
  cases whole
  exact (readsRegular faithful _).value _ _ _ inner

end Coordinator.Kit.JsonText
