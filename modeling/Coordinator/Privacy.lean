import Coordinator.Kit.FileTree
import Coordinator.Kit.Guard
import Coordinator.Kit.Regex
import Coordinator.Kit.Run
import Coordinator.Kit.Text
import Mathlib

/-! The scan for private text: seven patterns, the literals that are looked for before a pattern runs, and
the comparison that keeps a mutation from bringing private text into the files it owns. -/

namespace Coordinator.Privacy

open Kit Kit.Regex

inductive Label where
  | homePath | userPath | hostAlias | address | credential | privateKey | uuid
deriving DecidableEq, Repr

def Label.text : Label → String
  | homePath => "absolute Linux home path"
  | userPath => "absolute Windows user path"
  | hostAlias => "private host alias"
  | address => "private or loopback IP"
  | credential => "possible credential"
  | privateKey => "private key"
  | uuid => "session-like UUID"

/-- The characters that a pattern of plain letters and digits takes for `c` when it ignores case: beside the
two cases, the dotted and the dotless i, the long s and the Kelvin sign. -/
def variants (c : Char) : List Char :=
  [c, c.toLower, c.toUpper] ++
    if c.toNat = 0x130 ∨ c.toNat = 0x131 then ['i', 'I']
    else if c.toNat = 0x17f then ['s', 'S']
    else if c.toNat = 0x212a then ['k', 'K'] else []

def ignoringCase (accepts : Char → Bool) (c : Char) : Bool := (variants c).any accepts

def literal (s : String) : Regex Char := classes (s.toList.map fun c => (· == c))

/-- A literal in either case. -/
def folded (s : String) : Regex Char := classes (s.toList.map fun c => ignoringCase (· == c))

def hexDigit : Regex Char := one (ignoringCase Text.isHex)

/-- What a credential is called. -/
def credentialNames : Regex Char :=
  choice (folded "password") [folded "passwd", folded "token", folded "secret",
    sequence [folded "api", Regex.optional (one fun c => c == '_' || c == '-'), folded "key"]]

def addressStart : Regex Char := choice (literal "10") [literal "127"]

def addressDigits : Regex Char := repeats 1 (some 2) (one Text.isDecimal)

section
-- the characters of words, which decide where a word begins and ends
variable (word : Char → Bool)

def privatePatterns : List (Regex Char × Label) := [
  (literal "/home/", .homePath),
  (sequence [one (ignoringCase fun c => Text.isLower c || Text.isUpper c), folded ":\\Users\\"], .userPath),
  (sequence [edge word, folded "ai-ws", edge word], .hostAlias),
  (sequence [edge word, addressStart, literal ".", exactly 2 (sequence [addressDigits, literal "."]), addressDigits, edge word],
    .address),
  (sequence [edge word, credentialNames, repeats 0 none (one Text.isSpace), one (fun c => c == ':' || c == '='),
    repeats 0 none (one Text.isSpace), repeats 1 none (one fun c => !(Text.isSpace c || c == '<'))], .credential),
  (sequence [literal "-----BEGIN ", choice (literal "OPENSSH") [literal "RSA", literal "EC", literal "DSA"],
    literal " PRIVATE KEY-----"], .privateKey),
  (sequence [edge word, exactly 8 hexDigit, literal "-", exactly 4 hexDigit, literal "-", exactly 4 hexDigit, literal "-",
    exactly 4 hexDigit, literal "-", exactly 12 hexDigit, edge word], .uuid)]

def uuidPrivacyExempt : List String :=
  [".handoffctl.json", "coordinator.binding.json", "coordinator.backend.json", "tools/handoffctl.py"]

/-- UUIDs may stand in the files that hold the coordinator's identities and contracts. -/
def privacyPatternApplies (relative : String) (label : Label) : Bool :=
  label != .uuid || !uuidPrivacyExempt.contains relative

def isAscii (text : List Char) : Bool := text.all fun c => c.toNat < 128

def privateHexDigits : List Char := "0123456789abcdefABCDEF".toList

/-- Whether a hyphen at this place has eight digits before it and the other hyphens behind it. -/
def uuidShapeAt (text : List Char) (hyphen : Nat) : Bool :=
  hyphen + 28 ≤ text.length && text[hyphen + 5]? == some '-' && text[hyphen + 10]? == some '-' &&
    text[hyphen + 15]? == some '-' && ((text.drop (hyphen - 8)).take 8).all privateHexDigits.contains

/-- Every hyphen from the ninth character on is tried. -/
def possibleUuidPattern (text : List Char) : Bool :=
  36 ≤ text.length &&
    (List.range text.length).any fun hyphen => 8 ≤ hyphen && text[hyphen]? == some '-' && uuidShapeAt text hyphen

/-- The literals that are looked for before a pattern runs; they say nothing of text that is not ASCII. -/
def possiblePrivacyPattern (text lowered : String) (label : Label) : Bool :=
  if !isAscii text.toList then true
  else match label with
    | .homePath => Text.occursIn "/home/" text
    | .userPath => Text.occursIn ":\\users\\" lowered
    | .hostAlias => Text.occursIn "ai-ws" lowered
    | .address => Text.occursIn "10." text || Text.occursIn "127." text
    | .credential => ["password", "passwd", "token", "secret", "api_key", "api-key", "apikey"].any (Text.occursIn · lowered)
    | .privateKey => Text.occursIn "-----BEGIN " text
    | .uuid => possibleUuidPattern text.toList

/-- The text in lower case, as far as it is looked at: text with other letters is not. -/
def lowerText (text : String) : String := String.ofList (text.toList.map Char.toLower)

/-- One finding for each pattern that occurs, with the literals first. -/
def privateTextErrors (relative text : String) : List String :=
  let lowered := lowerText text
  ((privatePatterns word).filter fun entry => privacyPatternApplies relative entry.2 &&
    possiblePrivacyPattern text lowered entry.2 && entry.1.search text.toList).map
      fun entry => relative ++ ": " ++ entry.2.text

/-- One finding for each pattern that occurs. -/
def scannedTextErrors (relative text : String) : List String :=
  ((privatePatterns word).filter fun entry => privacyPatternApplies relative entry.2 && entry.1.search text.toList).map
    fun entry => relative ++ ": " ++ entry.2.text

end

theorem matches_literal {s : String} {before mid after : List Char} (found : (literal s).Matches before mid after) :
    mid = s.toList := by
  have each := matches_classes.mp found
  rw [List.forall₂_map_left_iff] at each
  have same : List.Forall₂ Eq s.toList mid := each.imp fun c d equal => (eq_of_beq equal).symm
  rw [List.forall₂_eq_eq_eq] at same
  exact same.symm

/-- Among ASCII characters a case-insensitive pattern takes only the two cases of a letter for each other. -/
theorem lower_of_ignoringCase {c d : Char} (ascii : d.toNat < 128) (accepted : ignoringCase (· == c) d = true) :
    d.toLower = c.toLower := by
  have plain : variants d = [d, d.toLower, d.toUpper] := by
    rw [variants, if_neg (by omega), if_neg (by omega), if_neg (by omega), List.append_nil]
  rw [ignoringCase, plain, List.any_cons, List.any_cons, List.any_cons, List.any_nil, Bool.or_false, Bool.or_eq_true,
    Bool.or_eq_true, beq_iff_eq, beq_iff_eq, beq_iff_eq] at accepted
  rcases accepted with rfl | rfl | rfl
  · rfl
  · exact d.toLower_toLower_eq_toLower.symm
  · exact d.toLower_toUpper_eq_toLower.symm

theorem isAscii_iff {text : List Char} : isAscii text = true ↔ ∀ c ∈ text, c.toNat < 128 := by
  simp [isAscii]

theorem isAscii_within {part text : List Char} (inside : part <:+: text) (ascii : isAscii text = true) : isAscii part = true :=
  isAscii_iff.mpr fun c member => isAscii_iff.mp ascii c (inside.subset member)

theorem lower_of_each {letters mid : List Char} (each : List.Forall₂ (fun c d => ignoringCase (· == c) d = true) letters mid)
    (ascii : isAscii mid = true) : mid.map Char.toLower = letters.map Char.toLower := by
  induction each with
  | nil => rfl
  | cons accepted rest ih =>
    rw [isAscii_iff, List.forall_mem_cons] at ascii
    rw [List.map_cons, List.map_cons, lower_of_ignoringCase ascii.1 accepted, ih (isAscii_iff.mpr ascii.2)]

theorem matches_folded {s : String} {before mid after : List Char} (found : (folded s).Matches before mid after)
    (ascii : isAscii mid = true) : mid.map Char.toLower = s.toList.map Char.toLower := by
  have each := matches_classes.mp found
  rw [List.forall₂_map_left_iff] at each
  exact lower_of_each each ascii

/-- A match of a literal in either case puts the literal into the lowered text. -/
theorem folded_within {s : String} {before mid after : List Char} (found : (folded s).Matches before mid after)
    (ascii : isAscii mid = true) {text : List Char} (inside : mid <:+: text) :
    s.toList.map Char.toLower <:+: text.map Char.toLower := by
  rw [← matches_folded found ascii]
  exact inside.map Char.toLower

theorem literal_within {s : String} {before mid after : List Char} (found : (literal s).Matches before mid after) : s.toList <:+: mid := by
  rw [matches_literal found]

theorem occursIn_lowered {part text : String} (inside : part.toList <:+: text.toList.map Char.toLower) :
    Text.occursIn part (lowerText text) = true := by
  apply Text.occursIn_of_infix
  rw [lowerText, String.toList_ofList]
  exact inside

/-- The name that a credential starts with, in lower case. -/
theorem credentialNames_within {before mid after : List Char} (found : credentialNames.Matches before mid after)
    (ascii : isAscii mid = true) : ∃ name ∈ ["password", "passwd", "token", "secret", "api_key", "api-key", "apikey"],
      name.toList <:+: mid.map Char.toLower := by
  obtain ⟨pattern, member, here⟩ := matches_choice.mp found
  have named {s : String} (same : pattern = folded s) : s.toList.map Char.toLower <:+: mid.map Char.toLower := by
    subst same
    exact folded_within here ascii (List.infix_refl mid)
  simp only [List.mem_cons, List.not_mem_nil, or_false] at member
  rcases member with same | same | same | same | rfl
  · exact ⟨"password", by decide, named same⟩
  · exact ⟨"passwd", by decide, named same⟩
  · exact ⟨"token", by decide, named same⟩
  · exact ⟨"secret", by decide, named same⟩
  · obtain ⟨api, rest, rfl, start, between, last, rfl, joint, key, none, rfl, stop, rfl⟩ := here
    have plain {part : List Char} (inside : part <:+: api ++ (between ++ (key ++ []))) : isAscii part = true :=
      isAscii_within inside ascii
    have started := matches_folded start (plain (List.prefix_append _ _).isInfix)
    have stopped := matches_folded stop (plain ⟨api ++ between, [], by simp⟩)
    rw [List.append_nil, List.map_append, List.map_append, started, stopped]
    rcases matches_optional.mp joint with rfl | ⟨c, joins, rfl⟩
    · exact ⟨"apikey", by decide, List.infix_refl _⟩
    · rw [Bool.or_eq_true, beq_iff_eq, beq_iff_eq] at joins
      rcases joins with rfl | rfl
      · exact ⟨"api_key", by decide, List.infix_refl _⟩
      · exact ⟨"api-key", by decide, List.infix_refl _⟩

theorem getElem?_middle {α : Type} {text : List α} {c : α} {place : Nat} (first rest : List α) (split : text = first ++ c :: rest)
    (here : place = first.length) : text[place]? = some c := by
  subst split here
  simp

theorem hexDigit_private {c : Char} (ascii : c.toNat < 128) (digit : ignoringCase Text.isHex c = true) :
    privateHexDigits.contains c = true := by
  have checked : ∀ n < 128, ignoringCase Text.isHex (Char.ofNat n) = true → privateHexDigits.contains (Char.ofNat n) = true := by
    decide
  have back := checked c.toNat ascii
  rw [Char.ofNat_toNat] at back
  exact back digit

/-- The fixed places of the hyphens in a match of the last pattern. -/
theorem uuid_shape {digits₁ digits₂ digits₃ digits₄ digits₅ lead after : List Char} (eight : digits₁.length = 8)
    (private_ : digits₁.all privateHexDigits.contains = true) (four₂ : digits₂.length = 4) (four₃ : digits₃.length = 4)
    (four₄ : digits₄.length = 4) (twelve : digits₅.length = 12) :
    possibleUuidPattern (lead ++ (digits₁ ++ '-' :: (digits₂ ++ '-' :: (digits₃ ++ '-' :: (digits₄ ++ '-' :: digits₅)))) ++ after) =
      true := by
  have long : (lead ++ (digits₁ ++ '-' :: (digits₂ ++ '-' :: (digits₃ ++ '-' :: (digits₄ ++ '-' :: digits₅)))) ++ after).length =
      lead.length + 36 + after.length := by
    simp only [List.length_append, List.length_cons]
    omega
  generalize whole :
    lead ++ (digits₁ ++ '-' :: (digits₂ ++ '-' :: (digits₃ ++ '-' :: (digits₄ ++ '-' :: digits₅)))) ++ after = text at long ⊢
  have first : text[lead.length + 8]? = some '-' :=
    getElem?_middle (lead ++ digits₁) (digits₂ ++ '-' :: (digits₃ ++ '-' :: (digits₄ ++ '-' :: digits₅)) ++ after)
      (by simp [← whole]) (by simp [eight])
  have second : text[lead.length + 8 + 5]? = some '-' :=
    getElem?_middle (lead ++ digits₁ ++ '-' :: digits₂) (digits₃ ++ '-' :: (digits₄ ++ '-' :: digits₅) ++ after)
      (by simp [← whole]) (by simp [eight, four₂])
  have third : text[lead.length + 8 + 10]? = some '-' :=
    getElem?_middle (lead ++ digits₁ ++ '-' :: (digits₂ ++ '-' :: digits₃)) (digits₄ ++ '-' :: digits₅ ++ after)
      (by simp [← whole]) (by simp [eight, four₂, four₃])
  have fourth : text[lead.length + 8 + 15]? = some '-' :=
    getElem?_middle (lead ++ digits₁ ++ '-' :: (digits₂ ++ '-' :: (digits₃ ++ '-' :: digits₄))) (digits₅ ++ after)
      (by simp [← whole]) (by simp [eight, four₂, four₃, four₄])
  have start : (text.drop (lead.length + 8 - 8)).take 8 = digits₁ := by
    rw [← whole, Nat.add_sub_cancel, List.append_assoc, List.drop_left, List.append_assoc, ← eight, List.take_left]
  rw [possibleUuidPattern, Bool.and_eq_true, List.any_eq_true]
  refine ⟨by simp [long]; omega, lead.length + 8, by simp [long]; omega, ?_⟩
  rw [uuidShapeAt, first, second, third, fourth, start, private_]
  simp [long]

theorem uuid_possible {word : Char → Bool} {lead mid after : List Char} (ascii : isAscii mid = true)
    (found : (sequence [edge word, exactly 8 hexDigit, literal "-", exactly 4 hexDigit, literal "-", exactly 4 hexDigit,
      literal "-", exactly 4 hexDigit, literal "-", exactly 12 hexDigit, edge word]).Matches lead.reverse mid after) :
    possibleUuidPattern (lead ++ mid ++ after) = true := by
  obtain ⟨_, _, rfl, ⟨rfl, -⟩, digits₁, _, rfl, eight, _, _, rfl, hyphen₁, digits₂, _, rfl, four₂, _, _, rfl, hyphen₂,
    digits₃, _, rfl, four₃, _, _, rfl, hyphen₃, digits₄, _, rfl, four₄, _, _, rfl, hyphen₄, digits₅, _, rfl, twelve,
    _, _, rfl, ⟨rfl, -⟩, rfl⟩ := found
  obtain rfl := matches_literal hyphen₁
  obtain rfl := matches_literal hyphen₂
  obtain rfl := matches_literal hyphen₃
  obtain rfl := matches_literal hyphen₄
  have shape := matches_exactly_one.mp eight
  have digits : digits₁.all privateHexDigits.contains = true := by
    rw [List.all_eq_true] at shape ⊢
    intro c member
    exact hexDigit_private (isAscii_iff.mp ascii c (by simp [member])) (shape.2 c member)
  have shaped (lead after : List Char) := @uuid_shape _ _ _ _ _ lead after shape.1 digits (matches_exactly_one.mp four₂).1
    (matches_exactly_one.mp four₃).1 (matches_exactly_one.mp four₄).1 (matches_exactly_one.mp twelve).1
  simpa using shaped lead after

/-- An address starts with one of the two first numbers and a dot. -/
theorem address_possible {word : Char → Bool} {rest : List (Regex Char)} {before mid after : List Char} {text : String}
    (found : (sequence (edge word :: addressStart :: literal "." :: rest)).Matches before mid after)
    (inside : mid <:+: text.toList) : (Text.occursIn "10." text || Text.occursIn "127." text) = true := by
  obtain ⟨_, _, rfl, ⟨rfl, -⟩, start, _, rfl, first, dot, others, rfl, here, -⟩ := found
  obtain rfl := matches_literal here
  have stands (s : String) (same : start = s.toList) : s.toList ++ ".".toList <:+: text.toList := by
    subst same
    refine List.IsInfix.trans ?_ inside
    exact ⟨[], others, by simp⟩
  obtain ⟨pattern, member, begins⟩ := matches_choice.mp first
  rw [Bool.or_eq_true]
  simp only [List.mem_cons, List.not_mem_nil, or_false] at member
  rcases member with rfl | rfl
  · exact .inl (Text.occursIn_of_infix (stands "10" (matches_literal begins)))
  · exact .inr (Text.occursIn_of_infix (stands "127" (matches_literal begins)))

section
variable {word : Char → Bool} {text : String}

/-- What a pattern finds passes the test that comes before the pattern. -/
theorem possible_of_search {pattern : Regex Char} {label : Label} (member : (pattern, label) ∈ privatePatterns word)
    (found : pattern.search text.toList = true) : possiblePrivacyPattern text (lowerText text) label = true := by
  unfold possiblePrivacyPattern
  split
  next => rfl
  next ascii =>
    rw [Bool.not_eq_true', Bool.not_eq_false] at ascii
    obtain ⟨lead, mid, after, split, here⟩ := (search_iff pattern _).mp found
    have inside : mid <:+: text.toList := ⟨lead, after, split.symm⟩
    have plain : isAscii mid = true := isAscii_within inside ascii
    -- what a part of a sequence matches stands in the text, in lower case
    have lowered (s : String) {patterns : List (Regex Char)} (listed : folded s ∈ patterns)
        (here : (sequence patterns).Matches lead.reverse mid after) :
        s.toList.map Char.toLower <:+: text.toList.map Char.toLower := by
      obtain ⟨_, part, _, within, found⟩ := matches_sequence_part listed here
      exact folded_within found (isAscii_within within plain) (within.trans inside)
    simp only [privatePatterns, List.mem_cons, List.not_mem_nil, or_false, Prod.mk.injEq] at member
    rcases member with ⟨rfl, rfl⟩ | ⟨rfl, rfl⟩ | ⟨rfl, rfl⟩ | ⟨rfl, rfl⟩ | ⟨rfl, rfl⟩ | ⟨rfl, rfl⟩ | ⟨rfl, rfl⟩
    · exact Text.occursIn_of_infix ((literal_within here).trans inside)
    · exact occursIn_lowered (lowered ":\\Users\\" (by simp) here)
    · exact occursIn_lowered (lowered "ai-ws" (by simp) here)
    · exact address_possible here inside
    · obtain ⟨_, part, _, within, found⟩ := matches_sequence_part (show credentialNames ∈ _ by simp) here
      obtain ⟨name, listed, named⟩ := credentialNames_within found (isAscii_within within plain)
      rw [List.any_eq_true]
      exact ⟨name, listed, occursIn_lowered (named.trans ((within.trans inside).map Char.toLower))⟩
    · obtain ⟨_, part, _, within, found⟩ := matches_sequence_part (show literal "-----BEGIN " ∈ _ by simp) here
      exact Text.occursIn_of_infix ((literal_within found).trans (within.trans inside))
    · rw [split]
      exact uuid_possible plain here

theorem privateTextErrors_eq (word : Char → Bool) (relative text : String) :
    privateTextErrors word relative text = scannedTextErrors word relative text := by
  rw [privateTextErrors, scannedTextErrors]
  congr 1
  apply List.filter_congr
  intro entry member
  cases found : entry.1.search text.toList with
  | false => rw [Bool.and_false, Bool.and_false]
  | true => rw [possible_of_search member found, Bool.and_true]

/-- The scan reports each pattern that occurs in the text, in the order of the patterns, whether or not it
looks for the literals first. -/
theorem privacy_prefilter_exact (word : Char → Bool) (relative text : String) :
    privateTextErrors word relative text = scannedTextErrors word relative text ∧
      ∀ error, error ∈ privateTextErrors word relative text ↔ ∃ entry ∈ privatePatterns word,
        privacyPatternApplies relative entry.2 = true ∧ error = relative ++ ": " ++ entry.2.text ∧
          ∃ lead mid after, text.toList = lead ++ mid ++ after ∧ entry.1.Matches lead.reverse mid after := by
  refine ⟨privateTextErrors_eq word relative text, fun error => ?_⟩
  rw [privateTextErrors_eq, scannedTextErrors, List.mem_map]
  constructor
  · rintro ⟨entry, member, rfl⟩
    rw [List.mem_filter, Bool.and_eq_true] at member
    exact ⟨entry, member.1, member.2.1, rfl, (search_iff _ _).mp member.2.2⟩
  · rintro ⟨entry, member, applies, rfl, here⟩
    refine ⟨entry, List.mem_filter.mpr ⟨member, ?_⟩, rfl⟩
    rw [applies, (search_iff _ _).mpr here, Bool.and_true]

end

/-! A mutation writes the files that it owns and puts them back where something in them was not there before. -/

def byteLength (text : String) : Nat := (text.toList.map Char.utf8Size).sum

/-- What a pattern finds in a text, with repetitions. -/
def finds (pattern : Regex Char) (text : String) : List (List Char) := pattern.findAll [] text.toList

/-- Some finding occurs more often than it did. -/
def grown (old new : List (List Char)) : Bool := new.any fun found => old.count found < new.count found

section
variable (word : Char → Bool)

def introducedErrors (relative content : String) (previous : Option String) : List String :=
  let current := readBack content
  let previousText := previous.getD ""
  errorIf (200000 < byteLength content && byteLength previousText ≤ 200000) (relative ++ ": state file exceeds 200 KiB") ++
    if current = previousText then []
    else ((privatePatterns word).filter fun entry => privacyPatternApplies relative entry.2 &&
      grown (finds entry.1 previousText) (finds entry.1 current)).map
        fun entry => relative ++ ": newly introduced " ++ entry.2.text

/-- The findings and the size that are new in the files of a snapshot. -/
def introducedContentErrors (tree : FileTree String) (before : FileTree.Snapshot String) : List String :=
  before.flatMap fun entry =>
    match tree.read entry.1 with
    | none => []
    | some content => introducedErrors word entry.1 content entry.2

/-- The files whose snapshot is taken, what the mutation writes, and whether anything else refuses it. -/
structure Mutation where
  paths : List String
  written : FileTree String
  refused : Bool

def persistMutation (tree : FileTree String) (mutation : Mutation) : FileTree String :=
  let before := tree.snapshot mutation.paths
  if mutation.refused || !(introducedContentErrors word mutation.written before).isEmpty then mutation.written.restore before
  else mutation.written

/-- The mutation took a snapshot of the file, or leaves it alone. -/
def Covers (path : String) (tree : FileTree String) (mutation : Mutation) : Prop :=
  path ∈ mutation.paths ∨ mutation.written.read path = tree.read path

/-- What there is to find in a file. -/
def findings (pattern : Regex Char) (tree : FileTree String) (path : String) : List (List Char) :=
  finds pattern ((tree.readText path).getD "")

def scan (tree : FileTree String) (path : String) : List String := privateTextErrors word path ((tree.readText path).getD "")

def fileSize (tree : FileTree String) (path : String) : Nat := byteLength ((tree.read path).getD "")

/-- Nothing private in the file that was not there, and no size above the limit that was not there. -/
structure NoWorse (start tree : FileTree String) (path : String) : Prop where
  found : ∀ entry ∈ privatePatterns word, privacyPatternApplies path entry.2 = true →
    ∀ part, (findings entry.1 tree path).count part ≤ (findings entry.1 start path).count part
  size : fileSize start path ≤ 200000 → fileSize tree path ≤ 200000

end

theorem byteLength_readBack (text : String) : byteLength (readBack text) ≤ byteLength text := by
  rw [readBack, byteLength, byteLength, String.toList_ofList]
  generalize text.toList = cs
  fun_induction uniformLines cs with
  | case1 => rfl
  | case2 rest ih =>
    simp only [List.map_cons, List.sum_cons]
    omega
  | case3 rest _ ih =>
    simp only [List.map_cons, List.sum_cons]
    exact Nat.add_le_add (by decide) ih
  | case4 c rest _ _ ih =>
    simp only [List.map_cons, List.sum_cons]
    omega

theorem count_le_of_not_grown {old new : List (List Char)} (same : grown old new = false) (part : List Char) :
    new.count part ≤ old.count part := by
  by_cases member : part ∈ new
  · have := List.any_eq_false.mp same part member
    simpa using this
  · rw [List.count_eq_zero_of_not_mem member]
    exact Nat.zero_le _

@[simp] theorem finds_empty (pattern : Regex Char) : finds pattern "" = [] := by
  rw [finds, String.toList_empty, findAll]

section
variable {word : Char → Bool} {start tree : FileTree String} {path : String} {mutation : Mutation}

theorem NoWorse.refl (word : Char → Bool) (tree : FileTree String) (path : String) : NoWorse word tree tree path :=
  ⟨fun _ _ _ _ => le_rfl, id⟩

/-- A file that holds what it held, or its text read back, is no worse. -/
theorem NoWorse.back (kept : NoWorse word start tree path) {next : FileTree String}
    (same : next.read path = tree.read path ∨ next.read path = tree.readText path) : NoWorse word start next path := by
  have text : next.readText path = tree.readText path := by
    rcases same with same | same
    · rw [FileTree.readText, FileTree.readText, same]
    · rw [FileTree.readText, same, FileTree.readText, Option.map_map]
      exact congrArg (Option.map · _) (funext readBack_readBack)
  refine ⟨fun entry member applies part => ?_, fun small => ?_⟩
  · rw [findings, text]
    exact kept.found entry member applies part
  · have before := kept.size small
    rw [fileSize] at before ⊢
    rcases same with same | same
    · rw [same]
      exact before
    · rw [same, FileTree.readText]
      cases held : tree.read path with
      | none => exact Nat.zero_le _
      | some content =>
        rw [held] at before
        exact (byteLength_readBack content).trans before

/-- What an accepted mutation leaves in a file of its snapshot. -/
theorem NoWorse.accepted (kept : NoWorse word start tree path) (owned : path ∈ mutation.paths)
    (clean : introducedContentErrors word mutation.written (tree.snapshot mutation.paths) = []) :
    NoWorse word start mutation.written path := by
  have entry : (path, tree.readText path) ∈ tree.snapshot mutation.paths := List.mem_map_of_mem owned
  have here := List.flatMap_eq_nil_iff.mp clean _ entry
  cases held : mutation.written.read path with
  | none =>
    refine ⟨fun entry _ _ part => ?_, fun _ => ?_⟩
    · rw [findings, FileTree.readText, held, Option.map_none, Option.getD_none, finds_empty]
      exact Nat.zero_le _
    · rw [fileSize, held]
      exact Nat.zero_le _
  | some content =>
    simp only [held, introducedErrors, List.append_eq_nil_iff, errorIf_eq_nil, Bool.and_eq_false_iff, decide_eq_false_iff_not,
      Nat.not_lt, Nat.not_le] at here
    refine ⟨fun entry member applies part => ?_, fun small => ?_⟩
    · refine le_trans ?_ (kept.found entry member applies part)
      rw [findings, findings, FileTree.readText, held, Option.map_some, Option.getD_some]
      obtain ⟨-, unseen⟩ := here
      split at unseen
      next same => rw [same]
      next =>
        rw [List.map_eq_nil_iff, List.filter_eq_nil_iff] at unseen
        have notGrown := unseen entry member
        rw [applies, Bool.true_and, Bool.not_eq_true] at notGrown
        exact count_le_of_not_grown notGrown part
    · have before := kept.size small
      rw [fileSize] at before ⊢
      rw [held, Option.getD_some]
      rcases here.1 with small | large
      · exact small
      · -- the snapshot is not longer than the file was
        have shorter : byteLength ((tree.readText path).getD "") ≤ byteLength ((tree.read path).getD "") := by
          rw [FileTree.readText]
          cases tree.read path with
          | none => exact le_rfl
          | some old => exact byteLength_readBack old
        omega

theorem persistMutation_noWorse (kept : NoWorse word start tree path) (covered : Covers path tree mutation) :
    NoWorse word start (persistMutation word tree mutation) path := by
  rw [persistMutation]
  split
  next =>
    apply kept.back
    have restored := tree.read_restore_snapshot mutation.written mutation.paths [] path
    rw [List.append_nil] at restored
    rw [restored]
    rcases covered with owned | alone
    · exact .inr (if_pos owned)
    · by_cases owned : path ∈ mutation.paths
      · exact .inr (if_pos owned)
      · rw [if_neg owned]
        exact .inl alone
  next accepted =>
    rw [Bool.or_eq_true, not_or, Bool.not_eq_true', Bool.not_eq_false, List.isEmpty_iff] at accepted
    rcases covered with owned | alone
    · exact kept.accepted owned accepted.2
    · exact kept.back (.inl alone)

/-- Every pattern takes at least one character. -/
theorem privatePatterns_consume {entry : Regex Char × Label} (member : entry ∈ privatePatterns word) : entry.1.Consumes := by
  intro before after found
  have nothing {pattern : Regex Char} {patterns : List (Regex Char)} (listed : pattern ∈ patterns)
      (consumes : pattern.Consumes) (found : (sequence patterns).Matches before [] after) : False := by
    obtain ⟨lead, part, rest, within, here⟩ := matches_sequence_part listed found
    obtain rfl := List.infix_nil.mp within
    exact consumes lead rest here
  have letters {s : String} (some_ : s.toList ≠ []) : (literal s).Consumes := fun _ _ found => some_ (matches_literal found).symm
  have either {s : String} (some_ : s.toList ≠ []) : (folded s).Consumes := fun _ _ found => by
    have same := matches_folded found rfl
    exact some_ (List.map_eq_nil_iff.mp same.symm)
  have single {accepts : Char → Bool} : (one accepts).Consumes := fun _ _ found => by
    obtain ⟨c, -, same⟩ := found
    cases same
  simp only [privatePatterns, List.mem_cons, List.not_mem_nil, or_false] at member
  rcases member with rfl | rfl | rfl | rfl | rfl | rfl | rfl
  · exact letters (by decide) _ _ found
  · exact nothing (show folded ":\\Users\\" ∈ _ by simp) (either (by decide)) found
  · exact nothing (show folded "ai-ws" ∈ _ by simp) (either (by decide)) found
  · exact nothing (show literal "." ∈ _ by simp) (letters (by decide)) found
  · exact nothing (show one (fun c => c == ':' || c == '=') ∈ _ by simp) single found
  · exact nothing (show literal "-----BEGIN " ∈ _ by simp) (letters (by decide)) found
  · exact nothing (show literal "-" ∈ _ by simp) (letters (by decide)) found

theorem scan_eq_nil : scan word tree path = [] ↔ ∀ entry ∈ privatePatterns word, privacyPatternApplies path entry.2 = true →
    findings entry.1 tree path = [] := by
  rw [scan, privateTextErrors_eq, scannedTextErrors, List.map_eq_nil_iff, List.filter_eq_nil_iff]
  refine forall₂_congr fun entry member => ?_
  rw [findings, finds, findAll_eq_nil (privatePatterns_consume member), Bool.and_eq_true, not_and, Bool.not_eq_true]
  rfl

/-- However mutations follow each other, succeed or fail, a file that each of them owns or leaves alone gets
no private text that it did not have and does not outgrow the limit. -/
theorem private_text_run (word : Char → Bool) {start : FileTree String} {mutations : List Mutation} {path : String}
    (covered : Run.Along (persistMutation word) (Covers path) start mutations) :
    NoWorse word start (Run.final (persistMutation word) start mutations) path ∧
      (scan word start path = [] → scan word (Run.final (persistMutation word) start mutations) path = []) := by
  have step (tree : FileTree String) (mutation : Mutation) (kept : NoWorse word start tree path)
      (covered : Covers path tree mutation) : NoWorse word start (persistMutation word tree mutation) path :=
    persistMutation_noWorse kept covered
  have kept := Run.invariant (persistMutation word) step mutations start (NoWorse.refl word start path) covered
  refine ⟨kept, fun clean => scan_eq_nil.mpr fun entry member applies => ?_⟩
  apply List.eq_nil_iff_forall_not_mem.mpr
  intro part found
  have bound := kept.found entry member applies part
  rw [scan_eq_nil.mp clean entry member applies, List.count_nil] at bound
  exact (List.count_pos_iff.mpr found).ne' (Nat.le_zero.mp bound)

/-- A task file into which a mutation writes a home path is put back. -/
theorem private_text_refused :
    NoWorse Text.isAlnum [("tasks/AR-0001.md", "notes")]
      (Run.final (persistMutation Text.isAlnum) [("tasks/AR-0001.md", "notes")]
        [⟨["tasks/AR-0001.md"], [("tasks/AR-0001.md", "see /home/me")], false⟩]) "tasks/AR-0001.md" := by
  apply And.left
  apply private_text_run
  exact ⟨.inl (by decide), trivial⟩

end

end Coordinator.Privacy
