import Coordinator.DurableSessionChain
import Coordinator.Kit.JsonOrder
import Mathlib.Data.List.Induction

/-! The head of a session chain: its digest stands for all the records behind it. -/

namespace Coordinator.SessionChain
open Kit JsonText

variable {shortest : Shortest} {record other : Json} {first second : List Json}

/-- A record without its digest. -/
def unsigned (record : Json) : Dict := (fields.filter (· ≠ "record_digest")).map (fun field => (field, record.get field))

/-- Among the records of two chains, a digest stands for one content. -/
def CollisionFree (first second : List Json) : Prop :=
  ∀ record ∈ first, ∀ other ∈ second, canonicalRecordDigest record = canonicalRecordDigest other →
    Json.rawBytes (.obj (unsigned record)) = Json.rawBytes (.obj (unsigned other))

theorem validateRecord_exact (valid : validateRecord record = .ok record) : record.hasExactly fields = true := by
  simp only [validateRecord, bind_eq_ok, exists_unit, refuseIf_eq_ok, Bool.not_eq_false'] at valid
  exact valid.1

theorem validateRecord_digest (valid : validateRecord record = .ok record) :
    record.get "record_digest" = .str (canonicalRecordDigest record) := by
  simp only [validateRecord, bind_eq_ok, exists_unit, refuseIf_eq_ok, forM_eq_ok, bne, Bool.not_eq_false', beq_iff_eq] at valid
  obtain ⟨-, -, -, -, -, -, -, -, _, -, -, _, -, -, -, -, digest, same, -⟩ := valid
  rw [isDigest, Bool.and_eq_true] at digest
  obtain ⟨word, text⟩ := Json.isStr_iff.mp digest.1
  rw [text] at same ⊢
  exact congrArg Json.str same

theorem nodup_unsigned (record : Json) : (Dict.keys (unsigned record)).Nodup := by
  have names : Dict.keys (unsigned record) = fields.filter (· ≠ "record_digest") := by
    rw [unsigned, Dict.keys, List.map_map]
    exact List.map_id _
  rw [names]
  decide

theorem regular_unsigned (regular : Regular shortest record) : Regular shortest (.obj (unsigned record)) := by
  refine ⟨nodup_unsigned record, regularMembers_iff.mpr fun entry member => ?_⟩
  obtain ⟨field, -, rfl⟩ := List.mem_map.mp member
  exact regular_get regular field

theorem get_unsigned {field : String} (listed : field ∈ fields.filter (· ≠ "record_digest")) :
    Dict.find field (unsigned record) = some (record.get field) :=
  find_of_mem (nodup_unsigned record) (List.mem_map.mpr ⟨field, listed, rfl⟩)

/-- What two records of one digest hold in each field but the digest, up to the order of members. -/
theorem unsigned_same (regular : Regular shortest record) (others : Regular shortest other)
    (printed : Json.rawBytes (.obj (unsigned record)) = Json.rawBytes (.obj (unsigned other))) {field : String}
    (listed : field ∈ fields.filter (· ≠ "record_digest")) : sortKeys (record.get field) = sortKeys (other.get field) := by
  have read := loads_prints prints_rawBytes (regular_unsigned regular)
  rw [printed, loads_prints prints_rawBytes (regular_unsigned others), Option.some.injEq] at read
  have found := congrArg (fun document => document.get field) read
  rw [get_sortKeys (nodup_unsigned record), get_sortKeys (nodup_unsigned other)] at found
  have left : (Json.obj (unsigned record)).get field = record.get field := by
    change (Dict.find field (unsigned record)).getD .null = _
    rw [get_unsigned listed, Option.getD_some]
  have right : (Json.obj (unsigned other)).get field = other.get field := by
    change (Dict.find field (unsigned other)).getD .null = _
    rw [get_unsigned listed, Option.getD_some]
  rw [left, right] at found
  exact found.symm

/-- Two valid records of one content are the same. -/
theorem record_same (regular : Regular shortest record) (others : Regular shortest other)
    (valid : validateRecord record = .ok record) (accepted : validateRecord other = .ok other)
    (digest : canonicalRecordDigest record = canonicalRecordDigest other)
    (printed : Json.rawBytes (.obj (unsigned record)) = Json.rawBytes (.obj (unsigned other))) :
    sortKeys record = sortKeys other := by
  have inner := fun field => @unsigned_same _ _ _ regular others printed field
  have left := validateRecord_digest valid
  have right := validateRecord_digest accepted
  have exactly := validateRecord_exact valid
  have exactlyOther := validateRecord_exact accepted
  cases record with
  | obj entries =>
    cases other with
    | obj entriesOther =>
      apply sortKeys_ext regular.1 others.1
      intro key
      rw [find_of_exact exactly, find_of_exact exactlyOther]
      by_cases known : key ∈ fields
      · rw [if_pos known, if_pos known]
        apply congrArg some
        by_cases own : key = "record_digest"
        · rw [own]
          change sortKeys ((Json.obj entries).get "record_digest") = sortKeys ((Json.obj entriesOther).get "record_digest")
          rw [left, right, digest]
        · exact inner key (List.mem_filter.mpr ⟨known, decide_eq_true own⟩)
      · rw [if_neg known, if_neg known]
    | _ => cases exactlyOther
  | _ => cases exactly

theorem snoc_follows {front : List Json} {last : Json} (linked : Linked 1 none (front ++ [last])) :
    Linked 1 none front ∧ Follows (1 + front.length) front.getLast? last := by
  have both := (linked_append last).mp linked
  rwa [Option.or_none] at both

/-- The digest that a record names is the one of the record before it. -/
theorem previous_digest {front : List Json} {last next : Json} (linked : Linked 1 none (front ++ [last] ++ [next])) :
    next.get "previous_record_digest" = .str (canonicalRecordDigest last) := by
  obtain ⟨before, follows⟩ := snoc_follows linked
  have link := follows.link
  rw [List.getLast?_append, List.getLast?_singleton, Option.some_or] at link
  have named := (checkLink_some link).1
  rw [validateRecord_digest (snoc_follows before).2.valid, Json.beq_str] at named
  exact named

theorem last_same {a b : Json} (left : Linked 1 none (first ++ [a])) (right : Linked 1 none (second ++ [b]))
    (regular : ∀ record ∈ first ++ [a], Regular shortest record) (others : ∀ record ∈ second ++ [b], Regular shortest record)
    (free : CollisionFree (first ++ [a]) (second ++ [b])) (head : canonicalRecordDigest a = canonicalRecordDigest b) :
    sortKeys a = sortKeys b ∧ first.length = second.length ∧
      sortKeys (a.get "previous_record_digest") = sortKeys (b.get "previous_record_digest") := by
  have inside : a ∈ first ++ [a] := List.mem_append_right _ (List.mem_singleton_self a)
  have there : b ∈ second ++ [b] := List.mem_append_right _ (List.mem_singleton_self b)
  have printed := free a inside b there head
  have follows := (snoc_follows left).2
  have followsOther := (snoc_follows right).2
  have field {name : String} (listed : name ∈ fields.filter (· ≠ "record_digest")) :=
    unsigned_same (regular a inside) (others b there) printed listed
  refine ⟨record_same (regular a inside) (others b there) follows.valid followsOther.valid head printed, ?_, field (by decide)⟩
  have place := field (show "journal_sequence" ∈ _ by decide)
  rw [follows.sequence, followsOther.sequence] at place
  have number := Json.int.inj place
  omega

/-- The records of two chains are the same, in the same order and number, if their last digests are. -/
theorem head_binds {a b : Json} (left : Linked 1 none (first ++ [a])) (right : Linked 1 none (second ++ [b]))
    (regular : ∀ record ∈ first ++ [a], Regular shortest record) (others : ∀ record ∈ second ++ [b], Regular shortest record)
    (free : CollisionFree (first ++ [a]) (second ++ [b])) (head : canonicalRecordDigest a = canonicalRecordDigest b) :
    (first ++ [a]).map sortKeys = (second ++ [b]).map sortKeys := by
  induction first using List.reverseRecOn generalizing second a b with
  | nil =>
    obtain ⟨last, length, -⟩ := last_same left right regular others free head
    rw [List.eq_nil_of_length_eq_zero length.symm, List.map_append, List.map_append, List.map_singleton, List.map_singleton, last]
  | append_singleton front prior ih =>
    obtain ⟨last, length, previous⟩ := last_same left right regular others free head
    obtain ⟨rear, before, rfl⟩ : ∃ rear before, second = rear ++ [before] := by
      obtain rfl | ⟨rear, before, split⟩ := List.eq_nil_or_concat second
      · rw [List.length_append] at length
        cases length
      · exact ⟨rear, before, by rw [split, List.concat_eq_append]⟩
    rw [previous_digest left, previous_digest right] at previous
    have digests := Json.str.inj previous
    have more := ih (snoc_follows left).1 (snoc_follows right).1 (fun record member => regular record (List.mem_append_left _ member))
      (fun record member => others record (List.mem_append_left _ member))
      (fun record member other listed => free record (List.mem_append_left _ member) other (List.mem_append_left _ listed)) digests
    calc (front ++ [prior] ++ [a]).map sortKeys = (front ++ [prior]).map sortKeys ++ [sortKeys a] := by simp
      _ = (rear ++ [before]).map sortKeys ++ [sortKeys b] := by rw [more, last]
      _ = (rear ++ [before] ++ [b]).map sortKeys := by simp

theorem regular_sealed (sequence revision : Int) {previous : Json} (printed : Regular shortest previous) (status : String) :
    Regular shortest (sealed sequence revision previous status) := by
  refine ⟨?_, trivial, trivial, trivial, trivial, trivial, printed, trivial, trivial, trivial, trivial, trivial, trivial, trivial,
    trivial, ⟨List.nodup_nil, trivial⟩, trivial, trivial⟩
  simp [Dict.set, Dict.keys]

/-- A first record with its fields in the other direction. -/
def turned : Json := .obj (sealed 1 2 .null "open").fields.reverse

end Coordinator.SessionChain
