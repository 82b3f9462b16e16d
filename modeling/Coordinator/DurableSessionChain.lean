import Coordinator.Kit.Guard
import Coordinator.Kit.RawJson
import Coordinator.Kit.Run
import Coordinator.Kit.Sha256

/-! The hash chain of durable upgrade sessions. A record names its predecessor by digest, its place
by number and its session by identity fields; a chain is checked as a whole at every append. -/

namespace Coordinator.SessionChain
open Kit

inductive Fault where
  | sessionChainError (message : String)
  | typeError
  deriving DecidableEq

abbrev Outcome (α : Type) := Except Fault α

def refuseIf (bad : Bool) (message : String) : Outcome Unit := raiseIf bad (.sessionChainError message)

def isTokenTail (c : Char) : Bool := Text.isAlnum c || "._:-".toList.contains c

def isToken (value : Json) : Bool := value.isStr && Text.shape Text.isAlnum isTokenTail 0 127 value.text

def isDigest (value : Json) : Bool := value.isStr && Text.hexText 64 value.text

def statuses : List String := ["open", "committed", "rolled_back", "ambiguous"]
def fsyncStates : List String := ["pending", "durable", "uncertain"]

def fields : List String :=
  ["schema_version", "session_id", "operation_id", "parent_operation_id", "journal_sequence",
    "previous_record_digest", "state_revision", "journal_identity", "authority_identity", "barrier_id",
    "fencing_owner", "fencing_token", "status", "fsync_state", "payload", "record_digest"]

def immutableSessionFields : List String :=
  ["session_id", "journal_identity", "authority_identity", "barrier_id", "fencing_owner", "fencing_token"]

/-- The digest of a record without its own digest. -/
def canonicalRecordDigest (record : Json) : String :=
  Sha256.hexdigest (Json.rawBytes (.obj ((fields.filter (· ≠ "record_digest")).map (fun field => (field, record.get field)))))

/-- A set answers for hashable values only. -/
def among (value : Json) (names : List String) : Outcome Bool :=
  match value with
  | .arr _ => .error .typeError
  | .obj _ => .error .typeError
  | plain => .ok (names.any (fun name => plain == .str name))

def isCount (value : Json) : Bool := value.exactInt?.any (fun number => decide (1 ≤ number))

def validateRecord (record : Json) : Outcome Json := do
  refuseIf (!record.hasExactly fields) "session record fields are invalid"
  refuseIf (record.get "schema_version" != .int 1) "session record schema version is invalid"
  refuseIf (!isToken (record.get "session_id")) "session session_id is invalid"
  refuseIf (!isToken (record.get "operation_id")) "session operation_id is invalid"
  refuseIf (!(record.get "parent_operation_id").isNull && !isToken (record.get "parent_operation_id"))
    "session parent_operation_id is invalid"
  ["journal_identity", "authority_identity", "barrier_id", "fencing_owner", "fencing_token"].forM fun field =>
    refuseIf (!isToken (record.get field)) ("session " ++ field ++ " is invalid")
  ["journal_sequence", "state_revision"].forM fun field =>
    refuseIf (!isCount (record.get field)) ("session " ++ field ++ " is invalid")
  refuseIf (!(record.get "previous_record_digest").isNull && !isDigest (record.get "previous_record_digest"))
    "session previous record digest is invalid"
  let status ← among (record.get "status") statuses
  refuseIf (!status) "session status is invalid"
  let fsync ← among (record.get "fsync_state") fsyncStates
  refuseIf (!fsync) "session fsync state is invalid"
  refuseIf (record.get "fsync_state" == .str "uncertain" && record.get "status" != .str "ambiguous")
    "uncertain fsync state must be permanently ambiguous"
  refuseIf (!(record.get "payload").isObj) "session payload is invalid"
  refuseIf (!isDigest (record.get "record_digest")) "session record digest is invalid"
  refuseIf ((record.get "record_digest").text != canonicalRecordDigest record) "session record digest does not match"
  pure record

/-- The check against the record before: its digest, and the identity that a session keeps. -/
def checkLink (prior : Option Json) (current : Json) : Outcome Unit :=
  match prior with
  | none => refuseIf (!(current.get "previous_record_digest").isNull) "first session record must use the genesis digest"
  | some last => do
      refuseIf (current.get "previous_record_digest" != last.get "record_digest") "session hash chain is broken"
      immutableSessionFields.forM fun field =>
        refuseIf (current.get field != last.get field) ("session identity changed: " ++ field)

def validateFrom (expectedSequence : Nat) (prior : Option Json) : List Json → Outcome (List Json)
  | [] => pure []
  | raw :: rest => do
      let current ← validateRecord raw
      refuseIf (current.get "journal_sequence" != .int expectedSequence) "session journal sequence is not contiguous"
      checkLink prior current
      let later ← validateFrom (expectedSequence + 1) (some current) rest
      pure (current :: later)

def validateChain (records : List Json) : Outcome (List Json) := validateFrom 1 none records

/-- The chain with one more record, validated from its beginning. -/
def append (chain : List Json) (record : Json) : Outcome (List Json) := validateChain (chain ++ [record])

/-- A refused record leaves the chain as it is. -/
def step (chain : List Json) (record : Json) : List Json :=
  match append chain record with
  | .ok next => next
  | .error _ => chain

/-! What is accepted -/

section accepted

variable {record value : Json} {records chain : List Json} {prior : Option Json} {expected : Nat}

/-- A record that may stand behind `prior` at its place. -/
structure Follows (expected : Nat) (prior : Option Json) (record : Json) : Prop where
  valid : validateRecord record = .ok record
  sequence : record.get "journal_sequence" = .int expected
  link : checkLink prior record = .ok ()

def Linked (expected : Nat) (prior : Option Json) : List Json → Prop
  | [] => True
  | record :: rest => Follows expected prior record ∧ Linked (expected + 1) (some record) rest

theorem refuseIf_eq_ok {bad : Bool} {message : String} : refuseIf bad message = .ok () ↔ bad = false := raiseIf_eq_ok

theorem validateRecord_same {result : Json} (valid : validateRecord record = .ok result) : result = record := by
  simp only [validateRecord, bind_eq_ok, exists_unit, pure_eq_ok] at valid
  obtain ⟨-, -, -, -, -, -, -, -, _, -, -, _, -, -, -, -, -, -, same⟩ := valid
  exact same.symm

theorem isCount_iff {value : Json} : isCount value = true ↔ ∃ number : Int, value = .int number ∧ 1 ≤ number := by
  cases value <;> simp [isCount, Json.exactInt?]

theorem validateRecord_counts (valid : validateRecord record = .ok record) :
    ∀ field ∈ ["journal_sequence", "state_revision"], isCount (record.get field) = true := by
  simp only [validateRecord, bind_eq_ok, exists_unit, forM_eq_ok, refuseIf_eq_ok, Bool.not_eq_false'] at valid
  obtain ⟨-, -, -, -, -, -, counts, -⟩ := valid
  exact counts

theorem validateRecord_tokens (valid : validateRecord record = .ok record) :
    ∀ field ∈ immutableSessionFields, isToken (record.get field) = true := by
  simp only [validateRecord, bind_eq_ok, exists_unit, forM_eq_ok, refuseIf_eq_ok, Bool.not_eq_false'] at valid
  obtain ⟨-, -, session, -, -, others, -⟩ := valid
  intro field member
  rcases List.mem_cons.mp member with rfl | listed
  · exact session
  · exact others field listed

theorem validateRecord_previous (valid : validateRecord record = .ok record) :
    record.get "previous_record_digest" = .null ∨ ∃ word, record.get "previous_record_digest" = .str word := by
  simp only [validateRecord, bind_eq_ok, exists_unit, forM_eq_ok, refuseIf_eq_ok] at valid
  obtain ⟨-, -, -, -, -, -, -, previous, -⟩ := valid
  rw [Bool.and_eq_false_iff, Bool.not_eq_false', Bool.not_eq_false', isDigest, Bool.and_eq_true] at previous
  exact previous.imp Json.isNull_iff.mp fun digest => Json.isStr_iff.mp digest.1

theorem null_beq (value : Json) : (Json.null == value) = true ↔ value = .null := by
  cases value with
  | null => exact iff_of_true rfl rfl
  | _ => exact iff_of_false (fun same => Bool.false_ne_true same) nofun

theorem checkLink_some {last : Json} (link : checkLink (some last) record = .ok ()) :
    (record.get "previous_record_digest" == last.get "record_digest") = true ∧
      ∀ field ∈ immutableSessionFields, (record.get field == last.get field) = true := by
  simpa only [checkLink, bind_eq_ok, exists_unit, forM_eq_ok, refuseIf_eq_ok, bne, Bool.not_eq_false'] using link

theorem validateFrom_eq_ok : ∀ {records : List Json} {expected : Nat} {prior : Option Json} {result : List Json},
    validateFrom expected prior records = .ok result ↔ result = records ∧ Linked expected prior records := by
  intro records
  induction records with
  | nil =>
    intro expected prior result
    rw [validateFrom, pure_eq_ok, Linked, and_true]
    exact eq_comm
  | cons record rest ih =>
    intro expected prior result
    simp only [validateFrom, bind_eq_ok, exists_unit, refuseIf_eq_ok, pure_eq_ok, Linked]
    constructor
    · rintro ⟨current, valid, sequence, link, later, linked, rfl⟩
      obtain rfl := validateRecord_same valid
      obtain ⟨rfl, others⟩ := ih.mp linked
      obtain ⟨number, counted, -⟩ := isCount_iff.mp (validateRecord_counts valid "journal_sequence" (by simp))
      refine ⟨rfl, ⟨valid, ?_, link⟩, others⟩
      rw [bne, Bool.not_eq_false', counted, Json.beq_int_int] at sequence
      rw [counted, sequence]
    · rintro ⟨rfl, follows, others⟩
      refine ⟨record, follows.valid, ?_, follows.link, rest, ih.mpr ⟨rfl, others⟩, rfl⟩
      rw [follows.sequence, bne, Bool.not_eq_false', Json.beq_int_int]

theorem linked_append (record : Json) : ∀ {chain : List Json} {expected : Nat} {prior : Option Json},
    Linked expected prior (chain ++ [record]) ↔
      Linked expected prior chain ∧ Follows (expected + chain.length) (chain.getLast?.or prior) record := by
  intro chain
  induction chain with
  | nil =>
    intro expected prior
    simp [Linked]
  | cons first rest ih =>
    intro expected prior
    rw [List.cons_append, Linked, Linked, ih, List.length_cons, Nat.add_assoc, Nat.add_comm 1, and_assoc]
    cases rest with
    | nil => rfl
    | cons second others => rw [List.getLast?_cons_cons, List.getLast?_cons, Option.some_or, Option.some_or]

/-- An append is accepted exactly for a record that may follow a linked chain. -/
theorem append_eq_ok {next : List Json} : append chain record = .ok next ↔
    next = chain ++ [record] ∧ Linked 1 none chain ∧ Follows (1 + chain.length) chain.getLast? record := by
  rw [append, validateChain, validateFrom_eq_ok, linked_append, Option.or_none]

theorem step_cases (chain : List Json) (record : Json) : step chain record = chain ∧ allowed (append chain record) = false ∨
    step chain record = chain ++ [record] ∧ allowed (append chain record) = true ∧ Linked 1 none chain ∧
      Follows (1 + chain.length) chain.getLast? record := by
  rw [step]
  cases result : append chain record with
  | error fault => exact .inl ⟨rfl, rfl⟩
  | ok next =>
    obtain ⟨rfl, linked, follows⟩ := append_eq_ok.mp result
    exact .inr ⟨rfl, rfl, linked, follows⟩

end accepted

/-! The model of the chain -/

def revisionOf (record : Json) : Int := (record.get "state_revision").int?.getD 0

def isAmbiguous (record : Json) : Bool := record.get "status" == .str "ambiguous"

/-- The append of the model: the next record of the same session goes behind a chain that has not
become ambiguous, names its predecessor, and is of no older state. -/
structure ModelAppend (chain : List Json) (record : Json) (next : List Json) : Prop where
  kept : next = chain ++ [record]
  sequence : record.get "journal_sequence" = .int (chain.length + 1)
  genesis : chain = [] → record.get "previous_record_digest" = .null
  prior : ∀ last ∈ chain.getLast?, record.get "previous_record_digest" = last.get "record_digest"
  session : ∀ last ∈ chain.getLast?, ∀ field ∈ immutableSessionFields, record.get field = last.get field
  revision : ∀ last ∈ chain.getLast?, revisionOf last ≤ revisionOf record
  certain : ∀ last ∈ chain.getLast?, isAmbiguous last = false

/-- What the model keeps of a chain. -/
structure Sound (chain : List Json) : Prop where
  contiguous : ∀ (place : Nat) (record : Json), chain[place]? = some record → record.get "journal_sequence" = .int (place + 1)
  identity : chain.Pairwise fun a b => ∀ field ∈ immutableSessionFields, b.get field = a.get field
  revisions : chain.Pairwise fun a b => revisionOf a ≤ revisionOf b
  certain : chain.Pairwise fun a _ => isAmbiguous a = false

/-- An append leaves the chain alone or is one of the model. -/
def Refines (chain : List Json) (record : Json) (next : List Json) : Prop :=
  next = chain ∨ ModelAppend chain record next

/-- What is accepted comes from no older state, and not after an ambiguous record. -/
def Continues (chain : List Json) (record : Json) : Prop :=
  allowed (append chain record) = true →
    ∀ last ∈ chain.getLast?, revisionOf last ≤ revisionOf record ∧ isAmbiguous last = false

section model

variable {chain : List Json} {record : Json}

/-- A transitive order that holds of the last element and a new one holds of all before. -/
theorem pairwise_snoc {α : Type} (related : α → α → Prop) (trans : ∀ {a b c}, related a b → related b c → related a c)
    {items : List α} {new : α} (ordered : items.Pairwise related) (next : ∀ last ∈ items.getLast?, related last new) :
    (items ++ [new]).Pairwise related := by
  refine List.pairwise_append.mpr ⟨ordered, List.pairwise_singleton _ _, fun item member other listed => ?_⟩
  obtain rfl := List.mem_singleton.mp listed
  obtain ⟨front, last, rfl⟩ := (List.eq_nil_or_concat items).resolve_left (List.ne_nil_of_mem member)
  rw [List.concat_eq_append] at ordered next member
  have final := next last (by simp)
  rcases List.mem_append.mp member with before | here
  · exact trans ((List.pairwise_append.mp ordered).2.2 item before last (by simp)) final
  · rwa [List.mem_singleton.mp here]

theorem sound_nil : Sound [] := ⟨by simp, .nil, .nil, .nil⟩

/-- The model's append keeps what the model says of chains. -/
theorem ModelAppend.sound {next : List Json} (appended : ModelAppend chain record next) (sound : Sound chain) : Sound next := by
  obtain rfl := appended.kept
  refine ⟨fun place other found => ?_, ?_, ?_, ?_⟩
  · rcases Nat.lt_trichotomy place chain.length with inside | rfl | outside
    · rw [List.getElem?_append_left inside] at found
      exact sound.contiguous place other found
    · rw [List.getElem?_concat_length] at found
      obtain rfl := Option.some.inj found
      exact appended.sequence
    · have length : (chain ++ [record]).length ≤ place := by
        rw [List.length_append, List.length_singleton]
        omega
      rw [List.getElem?_eq_none length] at found
      cases found
  · exact pairwise_snoc _ (fun first second field member => (second field member).trans (first field member))
      sound.identity appended.session
  · exact pairwise_snoc (fun a b => revisionOf a ≤ revisionOf b) (fun first second => le_trans first second)
      sound.revisions appended.revision
  · exact pairwise_snoc _ (fun first _ => first) sound.certain appended.certain

/-- What the code accepts is an append of the model where it continues the chain. -/
theorem modelAppend_iff (follows : Follows (1 + chain.length) chain.getLast? record) :
    ModelAppend chain record (chain ++ [record]) ↔
      ∀ last ∈ chain.getLast?, revisionOf last ≤ revisionOf record ∧ isAmbiguous last = false := by
  refine ⟨fun appended last final => ⟨appended.revision last final, appended.certain last final⟩, fun continues => ?_⟩
  have link := follows.link
  refine ⟨rfl, ?_, ?_, ?_, ?_, fun last final => (continues last final).1, fun last final => (continues last final).2⟩
  · rw [follows.sequence]
    exact congrArg Json.int (by omega)
  · rintro rfl
    simpa only [List.getLast?_nil, checkLink, refuseIf_eq_ok, Bool.not_eq_false', Json.isNull_iff] using link
  · intro last final
    obtain ⟨linked, -⟩ := checkLink_some (Option.mem_def.mp final ▸ link)
    obtain null | ⟨word, text⟩ := validateRecord_previous follows.valid
    · rw [null] at linked ⊢
      exact (null_beq _).mp linked |>.symm
    · rw [text, Json.str_beq] at linked
      rw [text, linked]
  · intro last final field member
    obtain ⟨-, same⟩ := checkLink_some (Option.mem_def.mp final ▸ link)
    have token := validateRecord_tokens follows.valid field member
    rw [isToken, Bool.and_eq_true] at token
    obtain ⟨word, text⟩ := Json.isStr_iff.mp token.1
    have equal := same field member
    rw [text, Json.str_beq] at equal
    rw [text, equal]

theorem refines_iff : Refines chain record (step chain record) ↔ Continues chain record := by
  obtain ⟨same, refused⟩ | ⟨appended, accepted, -, follows⟩ := step_cases chain record
  · refine iff_of_true (.inl same) fun accepted => ?_
    rw [refused] at accepted
    cases accepted
  · rw [Refines, appended, Continues, modelAppend_iff follows]
    refine ⟨fun refined _ => refined.resolve_left ?_, fun continues => .inr (continues accepted)⟩
    exact fun same => List.cons_ne_nil _ _ (List.append_right_eq_self.mp same)

theorem step_sound (sound : Sound chain) (continues : Continues chain record) : Sound (step chain record) := by
  obtain same | appended := refines_iff.mpr continues
  · rw [same]
    exact sound
  · exact appended.sound sound

end model

/-- A sequence of appends to an empty chain, of any length and with any records, is one of the model
in every step, and every chain it makes is as the model says, exactly when every accepted append
continues its chain. -/
theorem chain_refines_iff (records : List Json) :
    (Run.Steps step Refines [] records ∧ ∀ past rest, records = past ++ rest → Sound (Run.final step [] past)) ↔
      Run.Along step Continues [] records := by
  constructor
  · rintro ⟨steps, -⟩
    exact Run.along_mono step (fun _ _ => refines_iff.mp) steps
  · intro along
    refine ⟨Run.along_mono step (fun _ _ => refines_iff.mpr) along, ?_⟩
    rintro past rest rfl
    exact Run.invariant step (fun _ _ => step_sound) past [] sound_nil ((Run.along_append step past rest []).mp along).1

/-- A record with its own digest. -/
def sealed (sequence revision : Int) (previous : Json) (status : String) : Json :=
  let unsigned : Dict :=
    [("schema_version", .int 1), ("session_id", .str "session-1"), ("operation_id", .str "upgrade-1"),
      ("parent_operation_id", .null), ("journal_sequence", .int sequence), ("previous_record_digest", previous),
      ("state_revision", .int revision), ("journal_identity", .str "journal-generation-1"),
      ("authority_identity", .str "authority-1"), ("barrier_id", .str "barrier-1"), ("fencing_owner", .str "owner-1"),
      ("fencing_token", .str "fence-1"), ("status", .str status), ("fsync_state", .str "durable"), ("payload", .obj [])]
  .obj (unsigned.set "record_digest" (.str (canonicalRecordDigest (.obj unsigned))))

/-- A first record and one behind it, of a given state and outcome. -/
def chained (status : String) (revision : Int) : List Json :=
  let first := sealed 1 2 .null status
  [first, sealed 2 revision (first.get "record_digest") "open"]

/-- A chain goes back to an older state, and another one goes on after an ambiguous record. -/
theorem chain_regresses :
    ¬(Run.final step [] (chained "open" 1)).Pairwise (fun a b => revisionOf a ≤ revisionOf b) ∧
      ¬(Run.final step [] (chained "ambiguous" 2)).Pairwise (fun a _ => isAmbiguous a = false) := by
  have revisions : (Run.final step [] (chained "open" 1)).map revisionOf = [2, 1] := by decide +kernel
  have outcomes : (Run.final step [] (chained "ambiguous" 2)).map isAmbiguous = [true, false] := by decide +kernel
  constructor
  · intro ordered
    have mapped : ((Run.final step [] (chained "open" 1)).map revisionOf).Pairwise (· ≤ ·) := List.pairwise_map.mpr ordered
    rw [revisions] at mapped
    simp at mapped
  · intro certain
    have mapped : ((Run.final step [] (chained "ambiguous" 2)).map isAmbiguous).Pairwise (fun a _ => a = false) :=
      List.pairwise_map.mpr certain
    rw [outcomes] at mapped
    simp at mapped

end Coordinator.SessionChain
