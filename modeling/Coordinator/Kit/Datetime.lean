import Coordinator.Kit.Text

/-! Calendar dates, wall-clock times with an optional offset from UTC, and their
ISO 8601 texts: the printer, the reader and the round trip between them. -/

namespace Coordinator.Kit

namespace Calendar

def isLeap (year : Nat) : Bool := year % 4 == 0 && (year % 100 != 0 || year % 400 == 0)

/-- Days from the first of January of year one to that of the given year. -/
def daysBeforeYear (year : Nat) : Nat :=
  (year - 1) * 365 + (year - 1) / 4 - (year - 1) / 100 + (year - 1) / 400

def daysInMonth (year month : Nat) : Nat :=
  if month = 2 then (if isLeap year then 29 else 28)
  else if month = 4 ∨ month = 6 ∨ month = 9 ∨ month = 11 then 30 else 31

def commonDaysBefore : Nat → Nat
  | 2 => 31 | 3 => 59 | 4 => 90 | 5 => 120 | 6 => 151 | 7 => 181
  | 8 => 212 | 9 => 243 | 10 => 273 | 11 => 304 | 12 => 334
  | _ => 0

def daysBeforeMonth (year month : Nat) : Nat :=
  commonDaysBefore month + if 2 < month ∧ isLeap year then 1 else 0

/-- Day number of a date, the first of January of year one being day one. -/
def toOrdinal (year month day : Nat) : Nat := daysBeforeYear year + daysBeforeMonth year month + day

/-- The month and day of the zero-based day of a year: a guess that is at most one month late. -/
def monthDay (leap : Bool) (n : Nat) : Nat × Nat :=
  let before (month : Nat) := commonDaysBefore month + if 2 < month ∧ leap then 1 else 0
  let month := (n + 50) / 32
  if n < before month then (month - 1, n - before (month - 1) + 1) else (month, n - before month + 1)

/-- The date of a day number, by cycles of 400, 100, 4 and one years. -/
def ofOrdinal (ordinal : Nat) : Nat × Nat × Nat :=
  let n := ordinal - 1
  let n400 := n / 146097
  let n := n % 146097
  let n100 := n / 36524
  let n := n % 36524
  let n4 := n / 1461
  let n := n % 1461
  let n1 := n / 365
  let n := n % 365
  let year := n400 * 400 + 1 + n100 * 100 + n4 * 4 + n1
  if n1 = 4 ∨ n100 = 4 then (year - 1, 12, 31)
  else
    let leap := n1 == 3 && (n4 != 24 || n100 == 3)
    (year, monthDay leap n)

def validDate (year month day : Nat) : Bool :=
  1 ≤ year && year ≤ 9999 && 1 ≤ month && month ≤ 12 && 1 ≤ day && day ≤ daysInMonth year month

theorem monthDay_spec (year n : Nat) (bound : n < if isLeap year then 366 else 365) :
    1 ≤ (monthDay (isLeap year) n).1 ∧ (monthDay (isLeap year) n).1 ≤ 12 ∧
      1 ≤ (monthDay (isLeap year) n).2 ∧
      (monthDay (isLeap year) n).2 ≤ daysInMonth year (monthDay (isLeap year) n).1 ∧
      daysBeforeMonth year (monthDay (isLeap year) n).1 + (monthDay (isLeap year) n).2 = n + 1 := by
  have check : ∀ leap : Bool, ∀ n < (if leap then 366 else 365),
      1 ≤ (monthDay leap n).1 ∧ (monthDay leap n).1 ≤ 12 ∧ 1 ≤ (monthDay leap n).2 ∧
        (monthDay leap n).2 ≤ (if (monthDay leap n).1 = 2 then (if leap then 29 else 28)
          else if (monthDay leap n).1 = 4 ∨ (monthDay leap n).1 = 6 ∨ (monthDay leap n).1 = 9 ∨
            (monthDay leap n).1 = 11 then 30 else 31) ∧
        commonDaysBefore (monthDay leap n).1 + (if 2 < (monthDay leap n).1 ∧ leap then 1 else 0) +
          (monthDay leap n).2 = n + 1 := by decide +kernel
  exact check (isLeap year) n bound

theorem isLeap_iff (year : Nat) :
    isLeap year = true ↔ year % 4 = 0 ∧ (year % 100 ≠ 0 ∨ year % 400 = 0) := by
  simp [isLeap]

/-- The year reached by the cycles has exactly the days before it that they skipped. -/
theorem daysBeforeYear_cycles (n400 n100 n4 n1 : Nat) (h100 : n100 ≤ 3) (h4 : n4 ≤ 24) (h1 : n1 ≤ 3) :
    daysBeforeYear (n400 * 400 + 1 + n100 * 100 + n4 * 4 + n1) =
      n400 * 146097 + n100 * 36524 + n4 * 1461 + n1 * 365 := by
  unfold daysBeforeYear
  omega

theorem isLeap_cycles (n400 n100 n4 n1 : Nat) (h100 : n100 ≤ 3) (h4 : n4 ≤ 24) (h1 : n1 ≤ 3) :
    isLeap (n400 * 400 + 1 + n100 * 100 + n4 * 4 + n1) =
      (n1 == 3 && (n4 != 24 || n100 == 3)) := by
  rw [Bool.eq_iff_iff, isLeap_iff]
  simp only [Bool.and_eq_true, beq_iff_eq, Bool.or_eq_true, bne_iff_ne]
  omega

theorem ofOrdinal_spec (ordinal : Nat) (positive : 0 < ordinal) :
    1 ≤ (ofOrdinal ordinal).1 ∧ 1 ≤ (ofOrdinal ordinal).2.1 ∧ (ofOrdinal ordinal).2.1 ≤ 12 ∧
      1 ≤ (ofOrdinal ordinal).2.2 ∧
      (ofOrdinal ordinal).2.2 ≤ daysInMonth (ofOrdinal ordinal).1 (ofOrdinal ordinal).2.1 ∧
      toOrdinal (ofOrdinal ordinal).1 (ofOrdinal ordinal).2.1 (ofOrdinal ordinal).2.2 = ordinal := by
  obtain ⟨n, rfl⟩ : ∃ n, ordinal = n + 1 := ⟨ordinal - 1, by omega⟩
  unfold ofOrdinal
  simp only [Nat.add_sub_cancel]
  obtain ⟨n400, a, split400, ha⟩ : ∃ q r, n = q * 146097 + r ∧ r < 146097 :=
    ⟨n / 146097, n % 146097, by omega, by omega⟩
  obtain ⟨n100, b, split100, hb⟩ : ∃ q r, a = q * 36524 + r ∧ r < 36524 :=
    ⟨a / 36524, a % 36524, by omega, by omega⟩
  obtain ⟨n4, c, split4, hc⟩ : ∃ q r, b = q * 1461 + r ∧ r < 1461 :=
    ⟨b / 1461, b % 1461, by omega, by omega⟩
  obtain ⟨n1, d, split1, hd⟩ : ∃ q r, c = q * 365 + r ∧ r < 365 :=
    ⟨c / 365, c % 365, by omega, by omega⟩
  rw [show n / 146097 = n400 by omega, show n % 146097 = a by omega,
    show a / 36524 = n100 by omega, show a % 36524 = b by omega,
    show b / 1461 = n4 by omega, show b % 1461 = c by omega,
    show c / 365 = n1 by omega, show c % 365 = d by omega]
  by_cases last : n1 = 4 ∨ n100 = 4
  · -- the last day of a leap year that closes its cycle
    simp only [if_pos last]
    obtain ⟨before, yearIs⟩ : ∃ before, n400 * 400 + 1 + n100 * 100 + n4 * 4 + n1 - 1 = before + 1 :=
      ⟨n400 * 400 + n100 * 100 + n4 * 4 + n1 - 1, by omega⟩
    rw [yearIs]
    have leap : isLeap (before + 1) = true := by
      rw [isLeap_iff]
      omega
    refine ⟨by omega, by omega, by omega, by omega, by simp [daysInMonth], ?_⟩
    have extra : daysBeforeMonth (before + 1) 12 = 335 := by
      simp [daysBeforeMonth, commonDaysBefore, leap]
    have elapsed : daysBeforeYear (before + 1) = before * 365 + before / 4 - before / 100 + before / 400 := rfl
    rw [toOrdinal, extra, elapsed]
    obtain closed | closed := last
    · obtain rfl : before = n400 * 400 + n100 * 100 + n4 * 4 + 3 := by omega
      have quarters : (n400 * 400 + n100 * 100 + n4 * 4 + 3) / 4 = n400 * 100 + n100 * 25 + n4 := by omega
      have centuries : (n400 * 400 + n100 * 100 + n4 * 4 + 3) / 100 = n400 * 4 + n100 := by omega
      have eras : (n400 * 400 + n100 * 100 + n4 * 4 + 3) / 400 = n400 := by omega
      omega
    · obtain rfl : before = n400 * 400 + 399 := by omega
      omega
  · simp only [if_neg last]
    have h100 : n100 ≤ 3 := by omega
    have h4 : n4 ≤ 24 := by omega
    have h1 : n1 ≤ 3 := by omega
    rw [← isLeap_cycles n400 n100 n4 n1 h100 h4 h1]
    have before := daysBeforeYear_cycles n400 n100 n4 n1 h100 h4 h1
    obtain ⟨lower, upper, dayLower, dayUpper, total⟩ := monthDay_spec
      (n400 * 400 + 1 + n100 * 100 + n4 * 4 + n1) d (by split <;> omega)
    refine ⟨by omega, lower, upper, dayLower, dayUpper, ?_⟩
    rw [toOrdinal, before]
    omega

end Calendar

/-- A wall-clock time in microseconds since the start of year one, with its offset from UTC
in microseconds when it is known. -/
structure Datetime where
  wall : Nat
  offset : Option Int
  deriving DecidableEq

namespace Datetime

def second : Nat := 1000000
def day : Nat := 86400 * second

/-- The instant, which only a time with a known offset denotes. -/
def instant? (d : Datetime) : Option Int := d.offset.map (fun offset => d.wall - offset)

/-- Drop the part below one second. -/
def wholeSeconds (d : Datetime) : Datetime := { d with wall := d.wall / second * second }

def addSeconds (d : Datetime) (seconds : Int) : Datetime :=
  { d with wall := (d.wall + seconds * second).toNat }

def digitChar (n : Nat) : Char := Char.ofNat (48 + n % 10)

/-- The last `width` decimal digits of a number. -/
def digits : Nat → Nat → List Char
  | 0, _ => []
  | width + 1, n => digitChar (n / 10 ^ width) :: digits width n

def fraction (micros : Nat) : List Char := if micros = 0 then [] else '.' :: digits 6 micros

def offsetText (offset : Int) : List Char :=
  let size := offset.natAbs
  (if offset < 0 then '-' else '+') :: digits 2 (size / (3600 * second)) ++
    ':' :: digits 2 (size / (60 * second) % 60) ++
    (if size / second % 60 = 0 ∧ size % second = 0 then []
      else ':' :: digits 2 (size / second % 60) ++ fraction (size % second))

def isoformat (d : Datetime) : String :=
  let date := Calendar.ofOrdinal (d.wall / day + 1)
  let time := d.wall % day
  String.ofList
    (digits 4 date.1 ++ '-' :: digits 2 date.2.1 ++ '-' :: digits 2 date.2.2 ++
      'T' :: digits 2 (time / (3600 * second)) ++ ':' :: digits 2 (time / (60 * second) % 60) ++
      ':' :: digits 2 (time / second % 60) ++ fraction (time % second) ++
      (match d.offset with
        | some offset => offsetText offset
        | none => []))

def digitValue (c : Char) : Nat := c.toNat - 48

/-- Exactly `count` leading digits as a number after `total`, and what follows them. -/
def readDigits : Nat → Nat → List Char → Option (Nat × List Char)
  | 0, total, rest => some (total, rest)
  | _ + 1, _, [] => none
  | count + 1, total, c :: rest =>
      if Text.isDigit c then readDigits count (total * 10 + digitValue c) rest else none

/-- A text by its UTF-8 units, each unit standing for the character it encodes. -/
def units (s : String) : List Char := s.toList.flatMap (fun c => List.replicate c.utf8Size c)

/-- Where the date part of an ISO text ends. -/
def separatorIndex (cs : List Char) : Option Nat :=
  let count := cs.length
  if count = 7 then some 7
  else if cs[4]? = some '-' then
    if cs[5]? = some 'W' then
      if cs[8]? = some '-' then
        if count = 9 then none
        else if (cs[10]?.any Text.isDigit) then some 8
        else some 10
      else some 8
    else some 10
  else if cs[4]? = some 'W' then
    let index := 7 + ((cs.drop 7).takeWhile Text.isDigit).length
    if index < 9 then some index
    else if index % 2 = 0 then some 7
    else some 8
  else some 8

/-- The date of an ISO week and weekday. -/
def isoWeekDate (year week weekday : Nat) : Option (Nat × Nat × Nat) :=
  -- the weekday of the first of January, Monday being zero
  let firstWeekday := (Calendar.toOrdinal year 1 1 + 6) % 7
  if year < 1 ∨ 9999 < year then none
  else if week < 1 ∨ 53 < week then none
  else if week = 53 ∧ ¬(firstWeekday = 3 ∨ (firstWeekday = 2 ∧ Calendar.isLeap year)) then none
  else if weekday < 1 ∨ 7 < weekday then none
  else
    let firstMonday := Calendar.toOrdinal year 1 1 - firstWeekday + if 3 < firstWeekday then 7 else 0
    some (Calendar.ofOrdinal (firstMonday + (week - 1) * 7 + (weekday - 1)))

/-- The date at the front of a text whose date part has the given length. -/
def readDate (cs : List Char) (length : Nat) : Option (Nat × Nat × Nat) := do
  let (year, rest) ← readDigits 4 0 cs
  let dashes := if rest.head? = some '-' then 1 else 0
  let rest := rest.drop dashes
  if rest.head? = some 'W' then
    let (week, rest) ← readDigits 2 0 (rest.drop 1)
    if 7 + dashes < length then
      if dashes = 1 ∧ rest.head? ≠ some '-' then none
      else
        let (weekday, _) ← readDigits 1 0 (rest.drop dashes)
        isoWeekDate year week weekday
    else isoWeekDate year week 1
  else
    let (month, rest) ← readDigits 2 0 rest
    if dashes = 1 ∧ rest.head? ≠ some '-' then none
    else
      let (dayOfMonth, _) ← readDigits 2 0 (rest.drop dashes)
      some (year, month, dayOfMonth)

/-- Hours, minutes, seconds and microseconds as read, and whether unread text is left over. -/
structure Clock where
  hours : Nat := 0
  minutes : Nat := 0
  seconds : Nat := 0
  micros : Nat := 0
  leftover : Bool := false

def Clock.put (clock : Clock) (index value : Nat) : Clock :=
  match index with
  | 0 => { clock with hours := value }
  | 1 => { clock with minutes := value }
  | _ => { clock with seconds := value }

/-- Digits past the sixth are skipped. -/
def readFraction (clock : Clock) (cs : List Char) (room : Nat) : Option Clock := do
  let (micros, rest) ← readDigits (min room 6) 0 cs
  some { clock with
    micros := micros * 10 ^ (6 - room), leftover := !(rest.dropWhile Text.isDigit).isEmpty }

/-- `HH[:MM[:SS[.ffffff]]]` with or without its colons, in the first `room` characters. A text
that ends there with one more character is read up to it. -/
def readFields : Nat → Bool → Clock → List Char → Nat → Option Clock
  | 0, _, clock, cs, room => readFraction clock cs room
  | left + 1, colons, clock, cs, room => do
      let (value, rest) ← readDigits 2 0 cs
      let clock := clock.put (2 - left) value
      let colons := if left = 2 then rest.head? = some ':' else colons
      if room ≤ 3 then some { clock with leftover := !rest.isEmpty }
      else if colons ∧ rest.head? = some ':' then readFields left colons clock (rest.drop 1) (room - 3)
      else if rest.head? = some '.' ∨ rest.head? = some ',' then readFraction clock (rest.drop 1) (room - 3)
      else if ¬colons then readFields left colons clock rest (room - 2)
      else none

def readClock (cs : List Char) (room : Nat) : Option Clock := readFields 3 true {} cs room

def clockMicros (clock : Clock) : Nat :=
  ((clock.hours * 60 + clock.minutes) * 60 + clock.seconds) * second + clock.micros

def startsZone (c : Char) : Bool := c == '+' || c == '-' || c == 'Z'

/-- The offset whose first character starts the text. An offset of no whole second is none at all. -/
def readZone : List Char → Option (Option Int)
  | [] => some none
  | 'Z' :: rest => if rest = [] then some (some 0) else none
  | sign :: rest => do
      let clock ← readClock rest rest.length
      let size := clockMicros clock
      if clock.leftover then none
      else if size < second then some (some 0)
      else if size < day then some (some (if sign = '-' then -(size : Int) else size))
      else none

def readTime (cs : List Char) : Option (Nat × Option Int) := do
  let before := cs.takeWhile (fun c => !startsZone c)
  let zone := cs.dropWhile (fun c => !startsZone c)
  let clock ← readClock cs before.length
  let offset ← readZone zone
  if zone = [] ∧ clock.leftover then none
  else if clock.hours < 24 ∧ clock.minutes < 60 ∧ clock.seconds < 60 then some (clockMicros clock, offset)
  else none

def fromisoformat (s : String) : Option Datetime := do
  let cs := units s
  if cs.length < 7 then none
  else
    let index ← separatorIndex cs
    let (year, month, dayOfMonth) ← readDate cs index
    let (time, offset) ← match cs.drop index with
      | [] => some (0, none)
      | separator :: rest => readTime (rest.drop (separator.utf8Size - 1))
    if Calendar.validDate year month dayOfMonth then
      some { wall := (Calendar.toOrdinal year month dayOfMonth - 1) * day + time, offset := offset }
    else none

/-- The last microsecond of the year 9999 is the last time there is. -/
def limit : Nat := 3652059 * day

theorem digitChar_isDigit (n : Nat) : Text.isDigit (digitChar n) = true := by
  have check : ∀ k < 10, Text.isDigit (Char.ofNat (48 + k)) = true := by decide
  exact check (n % 10) (Nat.mod_lt n (by decide))

theorem digitChar_ne (n : Nat) (c : Char) (other : Text.isDigit c = false) : digitChar n ≠ c := by
  intro same
  rw [← same, digitChar_isDigit] at other
  cases other

theorem digitValue_digitChar (n : Nat) : digitValue (digitChar n) = n % 10 := by
  have check : ∀ k < 10, digitValue (Char.ofNat (48 + k)) = k := by decide
  exact check (n % 10) (Nat.mod_lt n (by decide))

theorem digits_two (n : Nat) : digits 2 n = [digitChar (n / 10), digitChar n] := by
  simp [digits]

theorem digits_four (n : Nat) :
    digits 4 n = [digitChar (n / 1000), digitChar (n / 100), digitChar (n / 10), digitChar n] := by
  simp [digits]


theorem readDigits_two (n : Nat) (bound : n < 100) (rest : List Char) :
    readDigits 2 0 (digitChar (n / 10) :: digitChar n :: rest) = some (n, rest) := by
  simp only [readDigits, digitChar_isDigit, if_true, digitValue_digitChar, Option.some.injEq, Prod.mk.injEq,
    and_true]
  omega

theorem readDigits_four (n : Nat) (bound : n < 10000) (rest : List Char) :
    readDigits 4 0 (digitChar (n / 1000) :: digitChar (n / 100) :: digitChar (n / 10) :: digitChar n :: rest) =
      some (n, rest) := by
  simp only [readDigits, digitChar_isDigit, if_true, digitValue_digitChar, Option.some.injEq, Prod.mk.injEq,
    and_true]
  omega

theorem readDate_digits (year month dayOfMonth length : Nat) (rest : List Char) (hy : year < 10000)
    (hm : month < 100) (hd : dayOfMonth < 100) :
    readDate (digits 4 year ++ '-' :: digits 2 month ++ '-' :: digits 2 dayOfMonth ++ rest) length =
      some (year, month, dayOfMonth) := by
  have plain : digitChar (month / 10) ≠ 'W' := digitChar_ne _ _ (by decide)
  rw [digits_four, digits_two, digits_two]
  simp [readDate, readDigits_four year hy, readDigits_two month hm, readDigits_two dayOfMonth hd, plain]

theorem readClock_digits (hours minutes seconds : Nat) (rest : List Char) (hh : hours < 100)
    (hm : minutes < 100) (hs : seconds < 100) :
    readClock (digits 2 hours ++ ':' :: digits 2 minutes ++ ':' :: digits 2 seconds ++ rest) 8 =
      some { hours := hours, minutes := minutes, seconds := seconds, leftover := !rest.isEmpty } := by
  rw [digits_two, digits_two, digits_two]
  simp [readClock, readFields, readDigits_two hours hh, readDigits_two minutes hm, readDigits_two seconds hs,
    Clock.put]

theorem daysInMonth_le (year month : Nat) : Calendar.daysInMonth year month ≤ 31 := by
  unfold Calendar.daysInMonth
  split
  · split <;> omega
  · split <;> omega

theorem ofOrdinal_year_le (ordinal : Nat) (positive : 0 < ordinal) (bound : ordinal ≤ 3652059) :
    (Calendar.ofOrdinal ordinal).1 ≤ 9999 := by
  obtain ⟨_, _, _, _, _, total⟩ := Calendar.ofOrdinal_spec ordinal positive
  unfold Calendar.toOrdinal Calendar.daysBeforeYear at total
  omega

theorem units_ascii (cs : List Char) (ascii : ∀ c ∈ cs, c.utf8Size = 1) : units (String.ofList cs) = cs := by
  unfold units
  rw [String.toList_ofList]
  induction cs with
  | nil => rfl
  | cons c rest ih =>
    rw [List.flatMap_cons, ih (fun d member => ascii d (List.mem_cons_of_mem c member)), ascii c List.mem_cons_self]
    rfl

theorem digitChar_utf8Size (n : Nat) : (digitChar n).utf8Size = 1 := by
  have check : ∀ k < 10, (Char.ofNat (48 + k)).utf8Size = 1 := by decide
  exact check (n % 10) (Nat.mod_lt n (by decide))

/-- An offset that the reader of a zone can return. -/
def Zoned (offset : Int) : Prop := offset.natAbs < day ∧ (offset = 0 ∨ second ≤ offset.natAbs)

theorem readDigits_six (n : Nat) (bound : n < 1000000) (rest : List Char) :
    readDigits 6 0 (digits 6 n ++ rest) = some (n, rest) := by
  simp only [digits, List.cons_append, List.nil_append, readDigits, digitChar_isDigit, if_true, digitValue_digitChar,
    Option.some.injEq, Prod.mk.injEq, and_true]
  omega

/-- The fields of an offset, as they are written, are read back. -/
theorem readClock_offset (size : Nat) (bound : size < day) :
    let text := digits 2 (size / (3600 * second)) ++ ':' :: digits 2 (size / (60 * second) % 60) ++
      (if size / second % 60 = 0 ∧ size % second = 0 then []
        else ':' :: digits 2 (size / second % 60) ++ fraction (size % second))
    ∃ clock, readClock text text.length = some clock ∧ clock.leftover = false ∧ clockMicros clock = size := by
  intro text
  have hh : size / (3600 * second) < 100 := by
    unfold day second at *
    omega
  have hm : size / (60 * second) % 60 < 100 := by omega
  have hs : size / second % 60 < 100 := by omega
  by_cases short : size / second % 60 = 0 ∧ size % second = 0
  · refine ⟨{ hours := size / (3600 * second), minutes := size / (60 * second) % 60 }, ?_, rfl, ?_⟩
    · simp only [text, if_pos short, List.append_nil, digits_two, List.cons_append, List.nil_append, List.length_cons,
        List.length_nil]
      simp [readClock, readFields, readDigits_two _ hh, readDigits_two _ hm, Clock.put]
    · unfold clockMicros
      unfold second at *
      simp only
      omega
  · by_cases whole : size % second = 0
    · refine ⟨{ hours := size / (3600 * second), minutes := size / (60 * second) % 60, seconds := size / second % 60 },
        ?_, rfl, ?_⟩
      · have none : fraction (size % second) = [] := by simp [fraction, whole]
        simp only [text, if_neg short, none, List.append_nil, digits_two, List.cons_append, List.nil_append,
          List.length_cons, List.length_nil]
        simp [readClock, readFields, readDigits_two _ hh, readDigits_two _ hm, readDigits_two _ hs, Clock.put]
      · unfold clockMicros
        unfold second at *
        simp only
        omega
    · have micros : size % second < 1000000 := Nat.mod_lt _ (by decide)
      refine ⟨⟨size / (3600 * second), size / (60 * second) % 60, size / second % 60, size % second, false⟩, ?_, rfl, ?_⟩
      · have some : fraction (size % second) = '.' :: digits 6 (size % second) := by simp [fraction, whole]
        have six := readDigits_six _ micros []
        rw [List.append_nil] at six
        have length : (digits 6 (size % second)).length = 6 := rfl
        simp only [text, if_neg short, some, digits_two, List.cons_append, List.nil_append,
          List.length_cons, length]
        simp [readClock, readFields, readFraction, readDigits_two _ hh, readDigits_two _ hm, readDigits_two _ hs,
          Clock.put, six]
      · unfold clockMicros
        unfold second at *
        simp only
        omega

/-- The zone of an offset whose size a clock denotes. -/
theorem readZone_signed {sign : Char} {rest : List Char} {clock : Clock} (signed : sign ≠ 'Z')
    (reads : readClock rest rest.length = some clock) (whole : clock.leftover = false) :
    readZone (sign :: rest) =
      if clockMicros clock < second then some (some 0)
      else if clockMicros clock < day then
        some (some (if sign = '-' then -(clockMicros clock : Int) else clockMicros clock))
      else none := by
  simp [readZone, reads, whole]

theorem readZone_offsetText {offset : Int} (zoned : Zoned offset) : readZone (offsetText offset) = some (some offset) := by
  obtain ⟨bound, size⟩ := zoned
  obtain ⟨clock, reads, whole, micros⟩ := readClock_offset offset.natAbs bound
  have signed : (if offset < 0 then '-' else '+') ≠ 'Z' := by split <;> decide
  have zone := readZone_signed signed reads whole
  rw [micros, if_pos bound] at zone
  refine Eq.trans ?_ (zone.trans ?_)
  · simp [offsetText]
  · by_cases zero : offset = 0
    · simp [zero, second]
    · have large : ¬offset.natAbs < second := by
        have := size.resolve_left zero
        omega
      rw [if_neg large]
      by_cases negative : offset < 0
      · simp only [if_pos negative, if_true, Option.some.injEq]
        omega
      · simp only [if_neg negative, Option.some.injEq]
        rw [if_neg (by decide)]
        omega

/-- A time of day with a zone behind it. -/
theorem readTime_zone {hours minutes seconds : Nat} {zone : List Char} {offset : Int} (hh : hours < 24)
    (hm : minutes < 60) (hs : seconds < 60) (starts : zone.head?.any startsZone = true)
    (reads : readZone zone = some (some offset)) :
    readTime (digits 2 hours ++ ':' :: digits 2 minutes ++ ':' :: digits 2 seconds ++ zone) =
      some (clockMicros { hours := hours, minutes := minutes, seconds := seconds }, some offset) := by
  obtain _ | ⟨sign, rest⟩ := zone
  · cases starts
  · have clock := readClock_digits hours minutes seconds (sign :: rest) (by omega) (by omega) (by omega)
    have inside (n : Nat) : startsZone (digitChar n) = false := by
      simp [startsZone, digitChar_ne n '+' (by decide), digitChar_ne n '-' (by decide), digitChar_ne n 'Z' (by decide)]
    have colon : startsZone ':' = false := by decide
    have signed : startsZone sign = true := starts
    rw [digits_two, digits_two, digits_two] at clock ⊢
    simp only [List.cons_append, List.nil_append] at clock ⊢
    simp [readTime, inside, colon, signed, clock, reads, hh, hm, hs, clockMicros]

theorem offsetText_starts (offset : Int) : (offsetText offset).head?.any startsZone = true := by
  unfold offsetText
  simp only [List.cons_append, List.head?_cons, Option.any_some]
  split <;> decide

theorem fraction_ascii (n : Nat) : ∀ c ∈ fraction n, Text.isDigit c = true ∨ c = '.' := by
  unfold fraction
  split
  · simp
  · simp [digits, digitChar_isDigit]

theorem digits_isDigit (width n : Nat) : ∀ c ∈ digits width n, Text.isDigit c = true := by
  induction width with
  | zero => simp [digits]
  | succ width ih =>
    intro c member
    rw [digits, List.mem_cons] at member
    obtain rfl | member := member
    · exact digitChar_isDigit _
    · exact ih c member

/-- The characters of an offset. -/
theorem offsetText_mem (offset : Int) : ∀ c ∈ offsetText offset, Text.isDigit c = true ∨ c ∈ ['+', '-', ':', '.'] := by
  intro c member
  unfold offsetText at member
  simp only [List.cons_append, List.mem_cons, List.mem_append] at member
  obtain rfl | (inside | rfl | inside) | inside := member
  · by_cases negative : offset < 0 <;> simp [negative]
  · exact Or.inl (digits_isDigit _ _ c inside)
  · simp
  · exact Or.inl (digits_isDigit _ _ c inside)
  · split at inside
    · cases inside
    · simp only [List.mem_cons, List.mem_append] at inside
      obtain rfl | inside | inside := inside
      · simp
      · exact Or.inl (digits_isDigit _ _ c inside)
      · obtain digit | rfl := fraction_ascii _ c inside
        · exact Or.inl digit
        · simp

theorem isDigit_ascii {c : Char} (digit : Text.isDigit c = true) : c.utf8Size = 1 := by
  simp only [Text.isDigit, Bool.and_eq_true, decide_eq_true_eq] at digit
  have upper : c.val ≤ 57 := digit.2
  exact Char.utf8Size_eq_one_iff.mpr (UInt32.le_trans upper (by decide))

theorem offsetText_ascii (offset : Int) : ∀ c ∈ offsetText offset, c.utf8Size = 1 ∧ c ≠ 'Z' := by
  intro c member
  obtain digit | listed := offsetText_mem offset c member
  · exact ⟨isDigit_ascii digit, fun same => by rw [same] at digit; exact absurd digit (by decide)⟩
  · simp only [List.mem_cons, List.not_mem_nil, or_false] at listed
    obtain rfl | rfl | rfl | rfl := listed <;> decide

/-- Reading back the text of a time with an offset and no part below one second. -/
theorem fromisoformat_isoformat_zoned {d : Datetime} {offset : Int} (zone : d.offset = some offset)
    (zoned : Zoned offset) (whole : d.wall % second = 0) (bound : d.wall < limit) :
    fromisoformat (isoformat d) = some d := by
  obtain ⟨wall, shown⟩ := d
  simp only at zone whole bound
  subst zone
  have positive : 0 < wall / day + 1 := Nat.succ_pos _
  have ordinalBound : wall / day + 1 ≤ 3652059 := by
    unfold limit at bound
    exact Nat.div_lt_of_lt_mul (by rw [Nat.mul_comm]; exact bound)
  obtain ⟨yearPos, monthPos, monthLe, dayPos, dayLe, total⟩ := Calendar.ofOrdinal_spec _ positive
  have yearLe := ofOrdinal_year_le _ positive ordinalBound
  unfold isoformat
  simp only
  generalize Calendar.ofOrdinal (wall / day + 1) = date at *
  obtain ⟨year, month, dayOfMonth⟩ := date
  simp only at *
  have dayBound := le_trans dayLe (daysInMonth_le year month)
  have wholeTime : wall % day % second = 0 := by
    rw [day, Nat.mod_mul_left_mod]
    exact whole
  have exact : fraction (wall % day % second) = [] := by simp [fraction, wholeTime]
  rw [exact, List.append_nil]
  generalize timeIs : wall % day = time at *
  have timeBound : time < day := by
    rw [← timeIs]
    exact Nat.mod_lt _ (by decide)
  have hh : time / (3600 * second) < 24 := by
    unfold day second at *
    omega
  have hm : time / (60 * second) % 60 < 60 := Nat.mod_lt _ (by decide)
  have hs : time / second % 60 < 60 := Nat.mod_lt _ (by decide)
  have date (rest : List Char) := readDate_digits year month dayOfMonth 10 rest (by omega) (by omega) (by omega)
  have clock := readTime_zone hh hm hs (offsetText_starts offset) (readZone_offsetText zoned)
  have valid : Calendar.validDate year month dayOfMonth = true := by
    simp [Calendar.validDate, yearPos, yearLe, monthPos, monthLe, dayPos, dayLe]
  have micros : clockMicros
      { hours := time / (3600 * second), minutes := time / (60 * second) % 60, seconds := time / second % 60 } =
        time := by
    unfold clockMicros
    unfold second at wholeTime ⊢
    simp only
    omega
  have rebuilt : (Calendar.toOrdinal year month dayOfMonth - 1) * day + time = wall := by
    rw [total, Nat.add_sub_cancel, ← timeIs]
    exact Nat.div_add_mod' wall day
  have notWeek (n : Nat) : digitChar n ≠ 'W' := digitChar_ne n 'W' (by decide)
  have separator : Char.utf8Size 'T' - 1 = 0 := by decide
  rw [micros] at clock
  simp only [digits_four, digits_two, List.cons_append, List.nil_append] at date clock ⊢
  simp only [fromisoformat]
  rw [units_ascii]
  · simp [separatorIndex, notWeek, date, clock, valid, rebuilt, separator]
  · have dash : Char.utf8Size '-' = 1 := by decide
    have colon : Char.utf8Size ':' = 1 := by decide
    have letter : Char.utf8Size 'T' = 1 := by decide
    simp only [List.forall_mem_cons, digitChar_utf8Size, dash, colon, letter, true_and]
    exact fun c member => (offsetText_ascii offset c member).1

theorem zoned_zero : Zoned 0 := ⟨by decide, Or.inl rfl⟩

/-- A trailing zulu marker is written as its numeric offset before reading. -/
def zulu (s : String) : String :=
  String.ofList (s.toList.flatMap (fun c => if c = 'Z' then ['+', '0', '0', ':', '0', '0'] else [c]))

def read (s : String) : Option Datetime := fromisoformat (zulu s)

/-- The instant of a text with an offset; converting to UTC must stay among the times there are. -/
def aware? (s : String) : Option Int := do
  let d ← read s
  let at_ ← d.instant?
  if 0 ≤ at_ ∧ at_.toNat < limit then some at_ else none

end Datetime

/-- One reading of a UTC clock, in microseconds since the start of year one. -/
structure Clock where
  micros : Nat
  inRange : micros < Datetime.limit

namespace Clock
open Datetime

/-- The time some seconds later, to the second, when there is one. -/
def after? (clock : Clock) (seconds : Int) : Option Datetime :=
  let moved : Int := clock.micros + seconds * second
  if 0 ≤ moved ∧ moved.toNat < limit then some ({ wall := moved.toNat, offset := some 0 } : Datetime).wholeSeconds
  else none

def stampTime (clock : Clock) : Datetime := ({ wall := clock.micros, offset := some 0 } : Datetime).wholeSeconds

def stamp (clock : Clock) : String := isoformat clock.stampTime

end Clock

namespace Datetime

theorem zulu_of_no_marker (cs : List Char) (plain : ∀ c ∈ cs, c ≠ 'Z') :
    zulu (String.ofList cs) = String.ofList cs := by
  have kept : cs.flatMap (fun c => if c = 'Z' then ['+', '0', '0', ':', '0', '0'] else [c]) = cs := by
    induction cs with
    | nil => rfl
    | cons c rest ih =>
      rw [List.flatMap_cons, ih (fun d member => plain d (List.mem_cons_of_mem c member)),
        if_neg (plain c List.mem_cons_self)]
      rfl
  unfold zulu
  rw [String.toList_ofList, kept]

theorem zulu_isoformat_zoned {d : Datetime} {offset : Int} (zone : d.offset = some offset)
    (whole : d.wall % second = 0) : zulu (isoformat d) = isoformat d := by
  have plain (n : Nat) : digitChar n ≠ 'Z' := digitChar_ne n 'Z' (by decide)
  have exact : fraction (d.wall % day % second) = [] := by
    have none : d.wall % day % second = 0 := by
      rw [day, Nat.mod_mul_left_mod]
      exact whole
    simp [fraction, none]
  unfold isoformat
  apply zulu_of_no_marker
  simp only [zone, exact, digits_four, digits_two, List.cons_append, List.nil_append, List.append_nil,
    List.forall_mem_cons]
  simp only [ne_eq, plain, not_false_eq_true, true_and]
  refine ⟨by decide, by decide, by decide, by decide, by decide, fun c member => (offsetText_ascii offset c member).2⟩

theorem read_isoformat_zoned {d : Datetime} {offset : Int} (zone : d.offset = some offset) (zoned : Zoned offset)
    (whole : d.wall % second = 0) (bound : d.wall < limit) : read (isoformat d) = some d := by
  rw [read, zulu_isoformat_zoned zone whole, fromisoformat_isoformat_zoned zone zoned whole bound]

theorem read_isoformat (d : Datetime) (utc : d.offset = some 0) (whole : d.wall % second = 0)
    (bound : d.wall < limit) : read (isoformat d) = some d := read_isoformat_zoned utc zoned_zero whole bound

theorem aware_isoformat (d : Datetime) (utc : d.offset = some 0) (whole : d.wall % second = 0)
    (bound : d.wall < limit) : aware? (isoformat d) = some d.wall := by
  have instant : d.instant? = some (d.wall : Int) := by simp [instant?, utc]
  have inside : 0 ≤ (d.wall : Int) ∧ (d.wall : Int).toNat < limit := ⟨Int.natCast_nonneg _, bound⟩
  rw [aware?, read_isoformat d utc whole bound]
  simp only [Option.bind_eq_bind, Option.bind_some, instant, if_pos inside]
  rfl

theorem isoformat_ne_empty (d : Datetime) : isoformat d ≠ "" := by
  intro empty
  have cs := congrArg String.toList empty
  simp [isoformat, digits_four] at cs

theorem wholeSeconds_mod (d : Datetime) : d.wholeSeconds.wall % second = 0 := Nat.mul_mod_left _ _

theorem wholeSeconds_le (d : Datetime) : d.wholeSeconds.wall ≤ d.wall := Nat.div_mul_le_self _ _

/-! What the reader returns. -/

theorem digitValue_lt {c : Char} (digit : Text.isDigit c = true) : digitValue c < 10 := by
  simp only [Text.isDigit, Bool.and_eq_true, decide_eq_true_eq] at digit
  have upper : c.toNat ≤ 57 := digit.2
  unfold digitValue
  omega

theorem readDigits_lt {count total value : Nat} {cs rest : List Char}
    (reads : readDigits count total cs = some (value, rest)) : value < (total + 1) * 10 ^ count := by
  induction count generalizing total cs with
  | zero =>
    simp only [readDigits, Option.some.injEq, Prod.mk.injEq] at reads
    omega
  | succ count ih =>
    cases cs with
    | nil => simp [readDigits] at reads
    | cons c tail =>
      rw [readDigits] at reads
      split at reads
      · next digit =>
        have below := ih reads
        have small := digitValue_lt digit
        calc value < (total * 10 + digitValue c + 1) * 10 ^ count := below
          _ ≤ ((total + 1) * 10) * 10 ^ count := Nat.mul_le_mul_right _ (by omega)
          _ = (total + 1) * 10 ^ (count + 1) := by rw [Nat.pow_succ, Nat.mul_comm (10 ^ count), Nat.mul_assoc]
      · cases reads

theorem readFraction_micros {clock read : Clock} {cs : List Char} {room : Nat}
    (reads : readFraction clock cs room = some read) : read.micros < second := by
  simp only [readFraction, Option.bind_eq_bind, Option.bind_eq_some_iff, Option.some.injEq, Prod.exists] at reads
  obtain ⟨micros, rest, digits, rfl⟩ := reads
  have below := readDigits_lt digits
  have power : 10 ^ min room 6 * 10 ^ (6 - room) = second := by
    rw [← Nat.pow_add, show min room 6 + (6 - room) = 6 by omega]
    rfl
  calc micros * 10 ^ (6 - room) < 10 ^ min room 6 * 10 ^ (6 - room) :=
        Nat.mul_lt_mul_of_pos_right (by simpa using below) (Nat.pow_pos (by decide))
    _ = second := power

theorem readFields_micros {left room : Nat} {colons : Bool} {clock read : Clock} {cs : List Char}
    (small : clock.micros < second) (reads : readFields left colons clock cs room = some read) :
    read.micros < second := by
  induction left generalizing colons clock cs room with
  | zero => exact readFraction_micros reads
  | succ left ih =>
    simp only [readFields, Option.bind_eq_bind, Option.bind_eq_some_iff, Prod.exists] at reads
    obtain ⟨value, rest, -, reads⟩ := reads
    have put : (clock.put (2 - left) value).micros < second := by
      unfold Clock.put
      split <;> exact small
    split_ifs at reads
    all_goals first
      | exact ih put reads
      | exact readFraction_micros reads
      | (cases reads; exact put)

theorem readZone_zoned {zone : List Char} {offset : Int} (reads : readZone zone = some (some offset)) : Zoned offset := by
  unfold readZone at reads
  split at reads
  · cases reads
  · split at reads
    · cases reads
      exact ⟨by decide, Or.inl rfl⟩
    · cases reads
  · next sign rest _ =>
    simp only [Option.bind_eq_bind, Option.bind_eq_some_iff] at reads
    obtain ⟨clock, -, reads⟩ := reads
    split at reads
    · cases reads
    · split at reads
      · cases reads
        exact ⟨by decide, Or.inl rfl⟩
      · next large =>
        split at reads
        · next bound =>
          simp only [Option.some.injEq] at reads
          subst reads
          unfold Zoned
          split <;> omega
        · cases reads

theorem readTime_spec {cs : List Char} {time : Nat} {shown : Option Int} (reads : readTime cs = some (time, shown)) :
    time < day ∧ ∀ offset, shown = some offset → Zoned offset := by
  simp only [readTime, Option.bind_eq_bind, Option.bind_eq_some_iff] at reads
  obtain ⟨clock, fields, zone, zoned, reads⟩ := reads
  have micros : clock.micros < second := readFields_micros (by decide) fields
  split at reads
  · cases reads
  · split at reads
    · next bounds =>
      cases reads
      refine ⟨?_, fun offset same => readZone_zoned (same ▸ zoned)⟩
      unfold clockMicros
      unfold day second at *
      omega
    · cases reads

theorem toOrdinal_le {year month dayOfMonth : Nat} (valid : Calendar.validDate year month dayOfMonth = true) :
    1 ≤ Calendar.toOrdinal year month dayOfMonth ∧ Calendar.toOrdinal year month dayOfMonth ≤ 3652059 := by
  simp only [Calendar.validDate, Bool.and_eq_true, decide_eq_true_eq] at valid
  obtain ⟨⟨⟨⟨⟨yearPos, yearLe⟩, monthPos⟩, monthLe⟩, dayPos⟩, dayLe⟩ := valid
  have within : Calendar.daysBeforeMonth year month + dayOfMonth ≤ if Calendar.isLeap year then 366 else 365 := by
    unfold Calendar.daysInMonth at dayLe
    unfold Calendar.daysBeforeMonth
    have table : ∀ leap : Bool, ∀ n < 13, 1 ≤ n → Calendar.commonDaysBefore n + (if 2 < n ∧ leap then 1 else 0) +
        (if n = 2 then (if leap then 29 else 28) else if n = 4 ∨ n = 6 ∨ n = 9 ∨ n = 11 then 30 else 31) ≤
          if leap then 366 else 365 := by decide
    exact le_trans (Nat.add_le_add_left dayLe _) (table (Calendar.isLeap year) month (by omega) monthPos)
  have leap := Calendar.isLeap_iff year
  unfold Calendar.toOrdinal Calendar.daysBeforeYear
  split at within
  · next holds =>
    rw [leap] at holds
    omega
  · omega

/-- A time that was read is before the end of the calendar and has a readable offset. -/
theorem fromisoformat_spec {s : String} {d : Datetime} (reads : fromisoformat s = some d) :
    d.wall < limit ∧ ∀ offset, d.offset = some offset → Zoned offset := by
  simp only [fromisoformat, Option.bind_eq_bind] at reads
  split at reads
  · cases reads
  · simp only [Option.bind_eq_some_iff, Prod.exists] at reads
    obtain ⟨index, -, year, month, dayOfMonth, -, reads⟩ := reads
    have clock : ∃ time shown, (time < day ∧ ∀ offset, shown = some offset → Zoned offset) ∧
        (if Calendar.validDate year month dayOfMonth = true then
          some (⟨(Calendar.toOrdinal year month dayOfMonth - 1) * day + time, shown⟩ : Datetime) else none) = some d := by
      split at reads
      · exact ⟨0, none, ⟨by decide, fun _ none => by cases none⟩, reads⟩
      · rw [Option.bind_eq_some_iff] at reads
        obtain ⟨⟨time, shown⟩, clock, reads⟩ := reads
        exact ⟨time, shown, readTime_spec clock, reads⟩
    obtain ⟨time, shown, spec, reads⟩ := clock
    split at reads
    · next valid =>
      cases reads
      have ordinal := toOrdinal_le valid
      refine ⟨?_, spec.2⟩
      simp only [limit]
      have := spec.1
      unfold day second at *
      omega
    · cases reads

theorem read_spec {s : String} {d : Datetime} (reads : read s = some d) :
    d.wall < limit ∧ ∀ offset, d.offset = some offset → Zoned offset := fromisoformat_spec reads

/-- A time that was read is read again from its text, without its part below one second. -/
theorem read_wholeSeconds {s : String} {d : Datetime} {instant : Int} (reads : read s = some d)
    (shown : d.instant? = some instant) : ∃ whole, read d.wholeSeconds.isoformat = some d.wholeSeconds ∧
      d.wholeSeconds.instant? = some whole ∧ whole ≤ instant := by
  obtain ⟨bound, zoned⟩ := read_spec reads
  obtain ⟨offset, zone, rfl⟩ := Option.map_eq_some_iff.mp shown
  have below := wholeSeconds_le d
  refine ⟨d.wholeSeconds.wall - offset, ?_, by simp [instant?, wholeSeconds, zone], by omega⟩
  exact read_isoformat_zoned (d := d.wholeSeconds) zone (zoned offset zone) (wholeSeconds_mod d) (by omega)

end Datetime

namespace Clock
open Datetime

theorem read_stamp (clock : Clock) : read clock.stamp = some clock.stampTime :=
  read_isoformat _ rfl (wholeSeconds_mod _) (lt_of_le_of_lt (wholeSeconds_le _) clock.inRange)

end Clock

end Coordinator.Kit
