import Mathlib.Data.List.Induction
import Mathlib.Tactic.Common

/-! Bytes as a program reads them: records that end in a separator, and the decoding of UTF-8 that keeps what
it cannot decode. -/

namespace Coordinator.Kit.Bytes

section terminated

variable {α : Type} (separator : α)

/-- Each field with a separator at its end. -/
def terminated (fields : List (List α)) : List α := fields.flatMap (· ++ [separator])

variable {separator}

theorem terminated_append (first second : List (List α)) :
    terminated separator (first ++ second) = terminated separator first ++ terminated separator second :=
  List.flatMap_append

theorem intercalate_snoc (fields : List (List α)) (rest : List α) :
    [separator].intercalate (fields ++ [rest]) = terminated separator fields ++ rest := by
  induction fields with
  | nil => simp [terminated]
  | cons field others ih =>
    have some_ : others ++ [rest] ≠ [] := List.append_ne_nil_of_right_ne_nil _ (List.cons_ne_nil _ _)
    rw [List.cons_append, List.intercalate_cons_of_ne_nil some_, ih]
    simp [terminated]

/-- Terminated fields are empty or end in a separator. -/
theorem getLast?_terminated (fields : List (List α)) :
    terminated separator fields = [] ∨ (terminated separator fields).getLast? = some separator := by
  induction fields using List.reverseRecOn with
  | nil => exact .inl rfl
  | append_singleton fields field _ =>
    refine .inr ?_
    have last : terminated separator [field] = field ++ [separator] := List.flatMap_singleton _ _
    rw [terminated_append, last, ← List.append_assoc, List.getLast?_concat]

variable [DecidableEq α]

theorem splitOn_terminated {fields : List (List α)} (free : ∀ field ∈ fields, separator ∉ field) {rest : List α}
    (open_ : separator ∉ rest) : (terminated separator fields ++ rest).splitOn separator = fields ++ [rest] := by
  rw [← intercalate_snoc]
  refine List.splitOn_intercalate separator (fun field member => ?_) (List.append_ne_nil_of_right_ne_nil _ (List.cons_ne_nil _ _))
  obtain listed | last := List.mem_append.mp member
  · exact free field listed
  · exact List.mem_singleton.mp last ▸ open_

/-- A text is its terminated fields and what comes after the last separator. -/
theorem eq_of_splitOn {text : List α} {fields : List (List α)} {rest : List α} (split : text.splitOn separator = fields ++ [rest]) :
    text = terminated separator fields ++ rest := by
  rw [← intercalate_snoc, ← split, List.intercalate_splitOn]

end terminated

section utf8

def isContinuation (byte : UInt8) : Bool := 0x80 ≤ byte.toNat && byte.toNat ≤ 0xBF

def bitsOf (byte : UInt8) : Nat := byte.toNat % 64

/-- The code points of two, three and four bytes behind a lead that they go with. -/
def two? (lead : Nat) : List UInt8 → Option Nat
  | second :: _ =>
      if isContinuation second && (0xC2 ≤ lead && lead ≤ 0xDF) then some ((lead - 0xC0) * 64 + bitsOf second) else none
  | _ => none

def three? (lead : Nat) : List UInt8 → Option Nat
  | second :: third :: _ =>
      if isContinuation second && isContinuation third &&
          (lead == 0xE0 && 0xA0 ≤ second.toNat || 0xE1 ≤ lead && lead ≤ 0xEC || lead == 0xED && second.toNat ≤ 0x9F ||
            0xEE ≤ lead && lead ≤ 0xEF) then
        some ((lead - 0xE0) * 4096 + bitsOf second * 64 + bitsOf third)
      else none
  | _ => none

def four? (lead : Nat) : List UInt8 → Option Nat
  | second :: third :: fourth :: _ =>
      if isContinuation second && isContinuation third && isContinuation fourth &&
          (lead == 0xF0 && 0x90 ≤ second.toNat || 0xF1 ≤ lead && lead ≤ 0xF3 || lead == 0xF4 && second.toNat ≤ 0x8F) then
        some ((lead - 0xF0) * 262144 + bitsOf second * 4096 + bitsOf third * 64 + bitsOf fourth)
      else none
  | _ => none

/-- The code point of the well-formed sequence that bytes begin with, and how many of them it takes. -/
def codePoint? : List UInt8 → Option (Nat × Nat)
  | [] => none
  | first :: rest =>
      let lead := first.toNat
      if lead < 0x80 then some (lead, 1)
      else match two? lead rest, three? lead rest, four? lead rest with
        | some point, _, _ => some (point, 2)
        | none, some point, _ => some (point, 3)
        | none, none, some point => some (point, 4)
        | none, none, none => none

/-- The code points of bytes, a byte that is not part of a well-formed sequence standing for itself above 0xDC00. -/
def decodeWith : Nat → List UInt8 → List Nat
  | 0, _ => []
  | _ + 1, [] => []
  | fuel + 1, byte :: rest =>
      match codePoint? (byte :: rest) with
      | some (point, count) => point :: decodeWith fuel ((byte :: rest).drop count)
      | none => (0xDC00 + byte.toNat) :: decodeWith fuel rest

def decode (bytes : List UInt8) : List Nat := decodeWith bytes.length bytes

/-- The bytes of a code point: those of its well-formed sequence, or the byte that it stands for above 0xDC00. -/
def encodePoint (point : Nat) : List UInt8 :=
  if point < 0x80 then [UInt8.ofNat point]
  else if point < 0x800 then [UInt8.ofNat (0xC0 + point / 64), UInt8.ofNat (0x80 + point % 64)]
  else if 0xDC80 ≤ point ∧ point ≤ 0xDCFF then [UInt8.ofNat (point - 0xDC00)]
  else if point < 0x10000 then
    [UInt8.ofNat (0xE0 + point / 4096), UInt8.ofNat (0x80 + point / 64 % 64), UInt8.ofNat (0x80 + point % 64)]
  else if point < 0x110000 then
    [UInt8.ofNat (0xF0 + point / 262144), UInt8.ofNat (0x80 + point / 4096 % 64), UInt8.ofNat (0x80 + point / 64 % 64),
      UInt8.ofNat (0x80 + point % 64)]
  else []

def encode (points : List Nat) : List UInt8 := points.flatMap encodePoint

theorem isContinuation_iff {byte : UInt8} : isContinuation byte = true ↔ 0x80 ≤ byte.toNat ∧ byte.toNat ≤ 0xBF := by
  simp only [isContinuation, Bool.and_eq_true, decide_eq_true_eq]

private theorem ofNat_eq {number : Nat} {byte : UInt8} (same : number = byte.toNat) : UInt8.ofNat number = byte := by
  rw [same, UInt8.ofNat_toNat]

theorem two?_encodes {first : UInt8} {rest : List UInt8} {point : Nat} (read : two? first.toNat rest = some point) :
    ∃ second tail, rest = second :: tail ∧ encodePoint point = [first, second] := by
  match rest with
  | [] => cases read
  | second :: tail =>
    simp only [two?, Option.ite_none_right_eq_some, Bool.and_eq_true, isContinuation_iff, decide_eq_true_eq, bitsOf,
      Option.some.injEq] at read
    obtain ⟨⟨continued, lead⟩, rfl⟩ := read
    refine ⟨second, tail, rfl, ?_⟩
    rw [encodePoint, if_neg (by omega), if_pos (by omega), ofNat_eq (show _ = first.toNat by omega),
      ofNat_eq (show _ = second.toNat by omega)]

theorem three?_encodes {first : UInt8} {rest : List UInt8} {point : Nat} (read : three? first.toNat rest = some point) :
    ∃ second third tail, rest = second :: third :: tail ∧ encodePoint point = [first, second, third] := by
  match rest with
  | [] => cases read
  | [_] => cases read
  | second :: third :: tail =>
    rw [three?, Option.ite_none_right_eq_some] at read
    obtain ⟨test, found⟩ := read
    cases found
    simp only [Bool.and_eq_true, Bool.or_eq_true, isContinuation_iff, decide_eq_true_eq, beq_iff_eq] at test
    obtain ⟨⟨continued, last⟩, lead⟩ := test
    refine ⟨second, third, tail, rfl, ?_⟩
    unfold bitsOf
    rw [encodePoint, if_neg (by omega), if_neg (by omega), if_neg (by omega), if_pos (by omega),
      ofNat_eq (show _ = first.toNat by omega), ofNat_eq (show _ = second.toNat by omega), ofNat_eq (show _ = third.toNat by omega)]

theorem four?_encodes {first : UInt8} {rest : List UInt8} {point : Nat} (read : four? first.toNat rest = some point) :
    ∃ second third fourth tail, rest = second :: third :: fourth :: tail ∧
      encodePoint point = [first, second, third, fourth] := by
  match rest with
  | [] => cases read
  | [_] => cases read
  | [_, _] => cases read
  | second :: third :: fourth :: tail =>
    rw [four?, Option.ite_none_right_eq_some] at read
    obtain ⟨test, found⟩ := read
    cases found
    simp only [Bool.and_eq_true, Bool.or_eq_true, isContinuation_iff, decide_eq_true_eq, beq_iff_eq] at test
    obtain ⟨⟨⟨continued, further⟩, last⟩, lead⟩ := test
    refine ⟨second, third, fourth, tail, rfl, ?_⟩
    unfold bitsOf
    rw [encodePoint, if_neg (by omega), if_neg (by omega), if_neg (by omega), if_neg (by omega), if_pos (by omega),
      ofNat_eq (show _ = first.toNat by omega), ofNat_eq (show _ = second.toNat by omega), ofNat_eq (show _ = third.toNat by omega),
      ofNat_eq (show _ = fourth.toNat by omega)]

/-- The code point of a sequence encodes to the bytes that were read for it. -/
theorem codePoint?_encodes {first : UInt8} {rest : List UInt8} {point count : Nat}
    (read : codePoint? (first :: rest) = some (point, count)) :
    ∃ more, count = more + 1 ∧ encodePoint point = first :: rest.take more := by
  simp only [codePoint?] at read
  by_cases ascii : first.toNat < 0x80
  · rw [if_pos ascii] at read
    cases read
    exact ⟨0, rfl, by rw [encodePoint, if_pos ascii, UInt8.ofNat_toNat, List.take_zero]⟩
  rw [if_neg ascii] at read
  cases second : two? first.toNat rest with
  | some found =>
    rw [second] at read
    cases read
    obtain ⟨_, _, rfl, encoded⟩ := two?_encodes second
    exact ⟨1, rfl, encoded⟩
  | none =>
    cases third : three? first.toNat rest with
    | some found =>
      rw [second, third] at read
      cases read
      obtain ⟨_, _, _, rfl, encoded⟩ := three?_encodes third
      exact ⟨2, rfl, encoded⟩
    | none =>
      cases fourth : four? first.toNat rest with
      | some found =>
        rw [second, third, fourth] at read
        cases read
        obtain ⟨_, _, _, _, rfl, encoded⟩ := four?_encodes fourth
        exact ⟨3, rfl, encoded⟩
      | none =>
        rw [second, third, fourth] at read
        cases read

theorem encodePoint_escaped {first : UInt8} {rest : List UInt8} (unread : codePoint? (first :: rest) = none) :
    encodePoint (0xDC00 + first.toNat) = [first] := by
  have high : ¬ first.toNat < 0x80 := by
    intro ascii
    simp only [codePoint?, if_pos ascii] at unread
    cases unread
  have below := first.toNat_lt
  rw [encodePoint, if_neg (by omega), if_neg (by omega), if_pos (by omega), ofNat_eq (show _ = first.toNat by omega)]

/-- Nothing is lost in decoding. -/
theorem encode_decode (bytes : List UInt8) : encode (decode bytes) = bytes := by
  have each (fuel : Nat) : ∀ bytes : List UInt8, bytes.length ≤ fuel → encode (decodeWith fuel bytes) = bytes := by
    induction fuel with
    | zero =>
      intro bytes short
      rw [List.length_eq_zero_iff.mp (Nat.le_zero.mp short)]
      rfl
    | succ fuel ih =>
      intro bytes short
      match bytes with
      | [] => rfl
      | first :: rest =>
        rw [List.length_cons] at short
        cases read : codePoint? (first :: rest) with
        | none =>
          rw [decodeWith, read]
          calc encode ((0xDC00 + first.toNat) :: decodeWith fuel rest)
              = encodePoint (0xDC00 + first.toNat) ++ encode (decodeWith fuel rest) := List.flatMap_cons
            _ = first :: rest := by rw [encodePoint_escaped read, ih rest (by omega), List.singleton_append]
        | some found =>
          obtain ⟨point, count⟩ := found
          obtain ⟨more, rfl, encoded⟩ := codePoint?_encodes read
          rw [decodeWith, read]
          have left : (rest.drop more).length ≤ fuel := by rw [List.length_drop]; omega
          calc encode (point :: decodeWith fuel (rest.drop more))
              = encodePoint point ++ encode (decodeWith fuel (rest.drop more)) := List.flatMap_cons
            _ = first :: rest := by rw [encoded, ih _ left, List.cons_append, List.take_append_drop]
  exact each bytes.length bytes (Nat.le_refl _)

private theorem zero_eq_ofNat {number : Nat} : (0 : UInt8) = UInt8.ofNat number ↔ number % 256 = 0 := by
  rw [← UInt8.toNat_inj, UInt8.toNat_ofNat]
  exact eq_comm

theorem zero_mem_encodePoint {point : Nat} (zero : 0 ∈ encodePoint point) : point = 0 := by
  unfold encodePoint at zero
  split_ifs at zero <;> simp only [List.mem_cons, List.not_mem_nil, zero_eq_ofNat, or_false] at zero <;> omega

/-- A zero byte is decoded as one. -/
theorem zero_mem_decode {bytes : List UInt8} (zero : 0 ∈ bytes) : 0 ∈ decode bytes := by
  rw [← encode_decode bytes] at zero
  obtain ⟨point, member, inside⟩ := List.mem_flatMap.mp zero
  exact zero_mem_encodePoint inside ▸ member

theorem decode_eq_nil {bytes : List UInt8} : decode bytes = [] ↔ bytes = [] := by
  constructor
  · intro none
    rw [← encode_decode bytes, none]
    rfl
  · rintro rfl
    rfl

end utf8

/-! Text as bytes. -/

theorem decode_ascii {points : List Nat} (ascii : ∀ point ∈ points, point < 0x80) : decode (encode points) = points := by
  have spelled : encode points = points.map UInt8.ofNat := by
    induction points with
    | nil => rfl
    | cons point rest ih =>
      rw [List.forall_mem_cons] at ascii
      rw [encode, List.flatMap_cons, encodePoint, if_pos ascii.1, List.map_cons, ← ih ascii.2]
      rfl
  have read (points : List Nat) (ascii : ∀ point ∈ points, point < 0x80) :
      decodeWith (points.map UInt8.ofNat).length (points.map UInt8.ofNat) = points := by
    induction points with
    | nil => rfl
    | cons point rest ih =>
      rw [List.forall_mem_cons] at ascii
      have value : (UInt8.ofNat point).toNat = point := by
        rw [UInt8.toNat_ofNat']
        omega
      have first : codePoint? (UInt8.ofNat point :: rest.map UInt8.ofNat) = some (point, 1) := by
        simp only [codePoint?, value, if_pos ascii.1]
      rw [List.map_cons, List.length_cons, decodeWith, first]
      exact congrArg (point :: ·) (ih ascii.2)
  rw [decode, spelled]
  exact read points ascii

def bytesOf (text : List Char) : List UInt8 := encode (text.map Char.toNat)

/-- The text of bytes that are one in UTF-8. -/
def textOf (bytes : List UInt8) : Option (List Char) :=
  if (decode bytes).all (fun point => decide point.isValidChar) then some ((decode bytes).map Char.ofNat) else none

theorem textOf_bytesOf {text : List Char} (ascii : ∀ c ∈ text, c.toNat < 0x80) : textOf (bytesOf text) = some text := by
  have points : decode (bytesOf text) = text.map Char.toNat := decode_ascii (List.forall_mem_map.mpr ascii)
  have valid : (text.map Char.toNat).all (fun point => decide point.isValidChar) = true := by
    rw [List.all_map, List.all_eq_true]
    exact fun c _ => decide_eq_true c.valid
  have back : (text.map Char.toNat).map Char.ofNat = text := by
    rw [List.map_map]
    exact (List.map_congr_left fun c _ => Char.ofNat_toNat c).trans (List.map_id _)
  rw [textOf, points, if_pos valid, back]

end Coordinator.Kit.Bytes
