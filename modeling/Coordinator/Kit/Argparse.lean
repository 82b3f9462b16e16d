import Coordinator.Kit.Guard
import Coordinator.Kit.Text

/-! Command lines for parsers whose options take one argument each: which strings count as options, how an option finds its
argument, and what is left for positional arguments. The rules are those of a common library for such parsers. -/

namespace Coordinator.Kit.Argparse

/-! Integers. -/

def digitValue (c : Char) : Option Nat :=
  (Text.decimalZeros.find? fun first => first ≤ c.toNat && c.toNat < first + 10).map (c.toNat - ·)

/-- Digits with single underscores between them. -/
def readDigits : List Char → Option (List Nat)
  | [] => none
  | [c] => (digitValue c).map ([·])
  | c :: '_' :: rest => do
      let digit ← digitValue c
      let others ← readDigits rest
      some (digit :: others)
  | c :: rest => do
      let digit ← digitValue c
      let others ← readDigits rest
      some (digit :: others)

/-- An integer between spaces, of no more digits than the interpreter converts. -/
def readInt (s : String) : Option Int := do
  let (negative, body) := match (Text.strip s).toList with
    | '-' :: rest => (true, rest)
    | '+' :: rest => (false, rest)
    | cs => (false, cs)
  let digits ← readDigits body
  if 4300 < digits.length then none
  else
    let value : Int := digits.foldl (fun value digit => 10 * value + digit) 0
    some (if negative then -value else value)

/-! Which strings are options. -/

/-- A minus sign with digits, or with digits around a point, and perhaps the end of a line. -/
def negativeNumber (arg : String) : Bool :=
  match arg.toList with
  | '-' :: rest =>
      let body := if rest.getLast? = some '\n' then rest.dropLast else rest
      let whole := body.takeWhile Text.isDecimal
      match body.dropWhile Text.isDecimal with
      | [] => !whole.isEmpty
      | '.' :: fraction => !fraction.isEmpty && fraction.all Text.isDecimal
      | _ => false
  | _ => false

/-- What stands before an equals sign, and behind it. -/
def splitEq (arg : String) : String × Option String :=
  match arg.toList.dropWhile (· ≠ '=') with
  | [] => (arg, none)
  | _ :: given => (String.ofList (arg.toList.takeWhile (· ≠ '=')), some (String.ofList given))

/-- The option strings that a string may abbreviate; one with a single dash may carry its argument behind one letter. -/
def abbreviated (strings : List String) (arg : String) : List String :=
  if Text.hasPrefix "--" arg then strings.filter (Text.hasPrefix (splitEq arg).1)
  else strings.filter fun name => name == String.ofList (arg.toList.take 2) || Text.hasPrefix arg name

/-- A string that stands for an option, be it known or not. -/
def parseOptional (strings : List String) (arg : String) : Bool :=
  if !Text.hasPrefix "-" arg then false
  else if strings.contains arg then true
  else if arg == "-" then false
  else if (splitEq arg).2.isSome && strings.contains (splitEq arg).1 then true
  else if !(abbreviated strings arg).isEmpty then true
  else if negativeNumber arg then false
  else !Text.contains ' ' arg

/-- A string that an option takes for its argument. -/
def isArgument (strings : List String) (arg : String) : Bool := arg != "--" && !parseOptional strings arg

/-- The option that a string stands for, with the argument that it carries itself. -/
def resolve (strings : List String) (arg : String) : Option (String × Option String) :=
  if strings.contains arg then some (arg, none)
  else if (splitEq arg).2.isSome && strings.contains (splitEq arg).1 then some (splitEq arg)
  else match abbreviated strings arg with
    | [name] =>
        if Text.hasPrefix "--" arg then some (name, (splitEq arg).2)
        else some (name, some (String.ofList (arg.toList.drop 2)))
    | _ => none

/-! Arguments that come in pairs of an option string and its argument. -/

def flat (pairs : List (String × String)) : List String := pairs.flatMap fun pair => [pair.1, pair.2]

/-- What a table made of the pairs holds for a name: the last of them counts. -/
def lookup : List (String × String) → String → Option String
  | [], _ => none
  | (key, value) :: rest, name => (lookup rest name).or (if key = name then some value else none)

theorem lookup_isSome {pairs : List (String × String)} {name : String} :
    (lookup pairs name).isSome = true ↔ name ∈ pairs.map Prod.fst := by
  induction pairs with
  | nil => simp [lookup]
  | cons pair rest ih =>
    obtain ⟨key, value⟩ := pair
    rw [lookup, Option.isSome_or, Bool.or_eq_true, ih, List.map_cons, List.mem_cons]
    by_cases same : key = name
    · simp [same]
    · simp [same, Ne.symm same]

theorem mem_of_lookup {pairs : List (String × String)} {name value : String} (found : lookup pairs name = some value) :
    (name, value) ∈ pairs := by
  induction pairs with
  | nil => cases found
  | cons pair rest ih =>
    obtain ⟨key, first⟩ := pair
    rw [lookup, Option.or_eq_some_iff] at found
    obtain later | ⟨-, own⟩ := found
    · exact List.mem_cons_of_mem _ (ih later)
    · rw [Option.ite_none_right_eq_some, Option.some.injEq] at own
      rw [own.1, own.2]
      exact List.mem_cons_self

theorem lookup_eq_some {pairs : List (String × String)} (distinct : (pairs.map Prod.fst).Nodup) {name value : String} :
    lookup pairs name = some value ↔ (name, value) ∈ pairs := by
  refine ⟨mem_of_lookup, fun member => ?_⟩
  obtain ⟨other, found⟩ := Option.isSome_iff_exists.mp (lookup_isSome.mpr (List.mem_map_of_mem member))
  have same := List.inj_on_of_nodup_map distinct (mem_of_lookup found) member rfl
  rw [found, (Prod.mk.inj same).2]

/-! Parsing. -/

variable {V : Type}

/-- An option with one argument, which its conversion may refuse. -/
structure Opt (V : Type) where
  name : String
  convert : String → Option V
  required : Bool

structure Parser (V : Type) where
  positionals : Nat
  options : List (Opt V)

/-- Positional arguments in their order and arguments of options, the latest first. -/
structure Parsed (V : Type) where
  positionals : List String
  values : List (String × V)

def Parsed.get? (parsed : Parsed V) (name : String) : Option V := (parsed.values.find? (·.1 == name)).map Prod.snd

namespace Parser

variable (parser : Parser V)

def strings : List String := "-h" :: "--help" :: parser.options.map Opt.name

def find (name : String) : Option (Opt V) := parser.options.find? (·.name == name)

/-- Convert and keep the argument of an option; a call for help ends the command. -/
def store (name value : String) (parsed : Parsed V) : Option (Parsed V) := do
  let option ← parser.find name
  let converted ← option.convert value
  some { parsed with values := (name, converted) :: parsed.values }

def place (args : List String) (parsed : Parsed V) : Option (Parsed V) :=
  if parsed.positionals.length + args.length ≤ parser.positionals then
    some { parsed with positionals := parsed.positionals ++ args }
  else none

def parseFrom : List String → Parsed V → Option (Parsed V)
  | [], parsed => some parsed
  | [arg], parsed =>
      if arg == "--" then some parsed
      else if !parseOptional parser.strings arg then parser.place [arg] parsed
      else match resolve parser.strings arg with
        | some (name, some given) => parser.store name given parsed
        | _ => none
  | arg :: value :: rest, parsed =>
      if arg == "--" then parser.place (value :: rest) parsed
      else if !parseOptional parser.strings arg then (parser.place [arg] parsed).bind (parseFrom (value :: rest))
      else match resolve parser.strings arg with
        | some (name, some given) => (parser.store name given parsed).bind (parseFrom (value :: rest))
        | some (name, none) =>
            if isArgument parser.strings value then (parser.store name value parsed).bind (parseFrom rest) else none
        | none => none

/-- All positional arguments and required options are there. -/
def complete (parsed : Parsed V) : Bool :=
  parsed.positionals.length == parser.positionals &&
    parser.options.all fun option => !option.required || (parsed.get? option.name).isSome

def parse (args : List String) : Option (Parsed V) := (parser.parseFrom args ⟨[], []⟩).filter parser.complete

/-- An option string that is spelled out and either known or not the beginning of a known one. -/
structure Spelled (name : String) : Prop where
  dashes : name ≠ "--"
  optional : parseOptional parser.strings name = true
  known : (parser.find name).isSome = true → resolve parser.strings name = some (name, none)
  unknown : parser.find name = none → resolve parser.strings name = none

/-- The same as a test. -/
def spells (name : String) : Bool :=
  name != "--" && parseOptional parser.strings name &&
    resolve parser.strings name == if (parser.find name).isSome then some (name, none) else none

variable {parser}

theorem spelled_of_spells {name : String} (spells : parser.spells name = true) : parser.Spelled name := by
  simp only [Parser.spells, Bool.and_eq_true, bne_iff_ne, beq_iff_eq] at spells
  obtain ⟨⟨dashes, optional⟩, resolved⟩ := spells
  exact {
    dashes := dashes
    optional := optional
    known := fun found => by rw [resolved, if_pos found]
    unknown := fun found => by
      rw [resolved, found]
      rfl }

theorem parseFrom_pair {name value : String} {rest : List String} {parsed : Parsed V} (spelled : parser.Spelled name) :
    parser.parseFrom (name :: value :: rest) parsed =
      if isArgument parser.strings value then (parser.store name value parsed).bind (parser.parseFrom rest) else none := by
  have dashes : (name == "--") = false := beq_eq_false_iff_ne.mpr spelled.dashes
  rw [parseFrom, dashes, spelled.optional]
  cases found : parser.find name with
  | none =>
    rw [spelled.unknown found, store, found]
    simp
  | some option =>
    rw [spelled.known (by rw [found]; rfl)]
    rfl

/-- Pairs are parsed when each option finds an argument and keeps it. -/
theorem parseFrom_flat {pairs : List (String × String)} {parsed result : Parsed V} (spelled : ∀ pair ∈ pairs, parser.Spelled pair.1) :
    parser.parseFrom (flat pairs) parsed = some result ↔ (∀ pair ∈ pairs, isArgument parser.strings pair.2 = true) ∧
      pairs.foldlM (fun parsed pair => parser.store pair.1 pair.2 parsed) parsed = some result := by
  induction pairs generalizing parsed with
  | nil => simp [flat, parseFrom]
  | cons pair rest ih =>
    rw [List.forall_mem_cons] at spelled
    change parser.parseFrom (pair.1 :: pair.2 :: flat rest) parsed = some result ↔ _
    rw [parseFrom_pair spelled.1, List.forall_mem_cons, List.foldlM_cons]
    by_cases plain : isArgument parser.strings pair.2 = true
    · rw [if_pos plain, Option.bind_eq_some_iff, Option.bind_eq_bind, Option.bind_eq_some_iff]
      constructor
      · rintro ⟨next, stored, parsed_⟩
        obtain ⟨others, folded⟩ := (ih spelled.2).mp parsed_
        exact ⟨⟨plain, others⟩, next, stored, folded⟩
      · rintro ⟨⟨-, others⟩, next, stored, folded⟩
        exact ⟨next, stored, (ih spelled.2).mpr ⟨others, folded⟩⟩
    · rw [if_neg plain]
      exact iff_of_false nofun fun ⟨⟨fits, _⟩, _⟩ => plain fits

/-- The argument that an option makes of a text. -/
def converted (parser : Parser V) (name value : String) : Option V := (parser.find name).bind fun option => option.convert value

theorem store_eq_some {name value : String} {parsed result : Parsed V} : parser.store name value parsed = some result ↔
    ∃ argument, parser.converted name value = some argument ∧ result = { parsed with values := (name, argument) :: parsed.values } := by
  simp only [store, converted, Option.bind_eq_bind, Option.bind_eq_some_iff, Option.some.injEq]
  constructor
  · rintro ⟨option, found, argument, made, rfl⟩
    exact ⟨argument, ⟨option, found, made⟩, rfl⟩
  · rintro ⟨argument, ⟨option, found, made⟩, rfl⟩
    exact ⟨option, found, argument, made, rfl⟩

/-- What is kept of the pairs. -/
theorem foldlM_store {pairs : List (String × String)} {parsed result : Parsed V}
    (folded : pairs.foldlM (fun parsed pair => parser.store pair.1 pair.2 parsed) parsed = some result) :
    result.positionals = parsed.positionals ∧ ∀ name, result.get? name =
      match lookup pairs name with
      | some value => parser.converted name value
      | none => parsed.get? name := by
  induction pairs generalizing parsed with
  | nil =>
    cases folded
    exact ⟨rfl, fun _ => rfl⟩
  | cons pair rest ih =>
    obtain ⟨key, value⟩ := pair
    rw [List.foldlM_cons, Option.bind_eq_bind, Option.bind_eq_some_iff] at folded
    obtain ⟨next, stored, folded⟩ := folded
    obtain ⟨argument, made, rfl⟩ := store_eq_some.mp stored
    obtain ⟨kept, values⟩ := ih folded
    refine ⟨kept, fun name => ?_⟩
    rw [values, lookup]
    cases later : lookup rest name with
    | some value => rfl
    | none =>
      rw [Option.none_or]
      by_cases same : key = name
      · subst same
        rw [if_pos rfl, Parsed.get?, List.find?_cons_of_pos (by simp)]
        exact made.symm
      · rw [if_neg same, Parsed.get?, List.find?_cons_of_neg (by simpa using same)]
        rfl

/-- Pairs are kept when each of them converts. -/
theorem foldlM_store_isSome {pairs : List (String × String)} {parsed : Parsed V} :
    (∃ result, pairs.foldlM (fun parsed pair => parser.store pair.1 pair.2 parsed) parsed = some result) ↔
      ∀ pair ∈ pairs, (parser.converted pair.1 pair.2).isSome = true := by
  induction pairs generalizing parsed with
  | nil => simp
  | cons pair rest ih =>
    rw [List.forall_mem_cons]
    simp only [List.foldlM_cons, Option.bind_eq_bind, Option.bind_eq_some_iff, store_eq_some]
    constructor
    · rintro ⟨result, _, ⟨argument, made, rfl⟩, folded⟩
      exact ⟨by rw [made]; rfl, ih.mp ⟨result, folded⟩⟩
    · rintro ⟨own, others⟩
      obtain ⟨argument, made⟩ := Option.isSome_iff_exists.mp own
      obtain ⟨result, folded⟩ := ih.mpr others
      exact ⟨result, _, ⟨argument, made, rfl⟩, folded⟩

theorem parseFrom_place {arg : String} {args : List String} {parsed : Parsed V} (plain : isArgument parser.strings arg = true) :
    parser.parseFrom (arg :: args) parsed = (parser.place [arg] parsed).bind (parser.parseFrom args) := by
  rw [isArgument, Bool.and_eq_true, bne_iff_ne, ← beq_eq_false_iff_ne, Bool.not_eq_true'] at plain
  cases args with
  | nil =>
    rw [parseFrom, plain.1, plain.2]
    cases parser.place [arg] parsed <;> rfl
  | cons value rest =>
    rw [parseFrom, plain.1, plain.2]
    rfl

/-- A command line of one positional argument and pairs of options with their arguments. -/
theorem parse_pairs {arg : String} {pairs : List (String × String)} {result : Parsed V} (single : parser.positionals = 1)
    (plain : isArgument parser.strings arg = true) (spelled : ∀ pair ∈ pairs, parser.Spelled pair.1) :
    parser.parse (arg :: flat pairs) = some result ↔ (∀ pair ∈ pairs, isArgument parser.strings pair.2 = true) ∧
      pairs.foldlM (fun parsed pair => parser.store pair.1 pair.2 parsed) ⟨[arg], []⟩ = some result ∧
        parser.complete result = true := by
  have placed : parser.place [arg] ⟨[], []⟩ = some ⟨[arg], []⟩ := by
    rw [place, single]
    rfl
  rw [parse, Option.filter_eq_some_iff, parseFrom_place plain, placed, Option.bind_some, parseFrom_flat spelled, and_assoc]

end Parser

end Coordinator.Kit.Argparse
