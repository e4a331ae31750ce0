import Parametric.Text.Blank
import Parametric.Number.Reading
/-! Instants in UTC and their RFC 3339 form.

Days are counted in the proleptic Gregorian calendar. Reading allows blanks
around the parts, parts without leading zeros, and a blank for the `T`.
-/

set_option autoImplicit false

namespace Parametric

/-- Seconds since the start of 1970 and nanoseconds within the second; a leap
second belongs to the second before it and has a billion nanoseconds more. -/
structure Timestamp where
  seconds : Int
  nanoseconds : Nat
  deriving DecidableEq, Repr

namespace Timestamp

/-- Days from the start of 1970 to a civil date. The year is taken to start in March. -/
def daysOfDate (year : Int) (month day : Nat) : Int :=
  let shifted := if month ≤ 2 then year - 1 else year
  let era := shifted.fdiv 400
  let yearOfEra := shifted - era * 400
  let monthFromMarch := if month ≤ 2 then month + 9 else month - 3
  -- From March on, any five months have 153 days.
  let dayOfYear := (153 * monthFromMarch + 2) / 5 + day - 1
  let dayOfEra := yearOfEra * 365 + yearOfEra / 4 - yearOfEra / 100 + dayOfYear
  -- Four hundred years have 146097 days; 719468 of them lead from March of year 0 to 1970.
  era * 146097 + dayOfEra - 719468

def dateOfDays (days : Int) : Int × Nat × Nat :=
  let fromMarch := days + 719468
  let era := fromMarch.fdiv 146097
  let dayOfEra := (fromMarch - era * 146097).toNat
  let yearOfEra := (dayOfEra - dayOfEra / 1460 + dayOfEra / 36524 - dayOfEra / 146096) / 365
  let dayOfYear := dayOfEra - (365 * yearOfEra + yearOfEra / 4 - yearOfEra / 100)
  let monthFromMarch := (5 * dayOfYear + 2) / 153
  let day := dayOfYear - (153 * monthFromMarch + 2) / 5 + 1
  let month := if monthFromMarch < 10 then monthFromMarch + 3 else monthFromMarch - 9
  (Int.ofNat yearOfEra + era * 400 + (if month ≤ 2 then 1 else 0), month, day)

def isLeapYear (year : Int) : Bool :=
  year % 4 = 0 ∧ (year % 100 ≠ 0 ∨ year % 400 = 0)

def daysInMonth (year : Int) (month : Nat) : Nat :=
  if month = 2 then if isLeapYear year then 29 else 28
  else if month ∈ [4, 6, 9, 11] then 30 else 31

def padded (width value : Nat) : List Char :=
  let digits := Nat.toDigits 10 value
  List.replicate (width - digits.length) '0' ++ digits

def fraction (nanoseconds : Nat) : List Char :=
  if nanoseconds = 0 then []
  else if nanoseconds % 1000000 = 0 then '.' :: padded 3 (nanoseconds / 1000000)
  else if nanoseconds % 1000 = 0 then '.' :: padded 6 (nanoseconds / 1000)
  else '.' :: padded 9 nanoseconds

def yearText (year : Int) : List Char :=
  if 0 ≤ year ∧ year ≤ 9999 then padded 4 year.toNat
  else (if year < 0 then '-' else '+') :: padded 4 year.natAbs

/-- The RFC 3339 form in UTC, ending in the given mark for that zone. -/
def text (t : Timestamp) (zone : String) : String :=
  let days := t.seconds.fdiv 86400
  let ofDay := (t.seconds - days * 86400).toNat
  let (year, month, day) := dateOfDays days
  let leap := 1000000000 ≤ t.nanoseconds
  let second := ofDay % 60 + if leap then 1 else 0
  let nanoseconds := if leap then t.nanoseconds - 1000000000 else t.nanoseconds
  String.ofList (yearText year ++ '-' :: padded 2 month ++ '-' :: padded 2 day ++ 'T' ::
    padded 2 (ofDay / 3600) ++ ':' :: padded 2 (ofDay / 60 % 60) ++ ':' :: padded 2 second ++
    fraction nanoseconds) ++ zone

def readDigits? (most : Nat) (cs : List Char) : Option (Nat × List Char) :=
  let digits := (cs.take most).takeWhile Char.isDigit
  if digits.isEmpty then none else some (digitsValue digits, cs.drop digits.length)

def readPart? (cs : List Char) : Option (Nat × List Char) :=
  readDigits? 2 (Text.trimStart cs)

def readMark? (mark : Char) (cs : List Char) : Option (List Char) :=
  match Text.trimStart cs with
  | c :: rest => if c = mark then some rest else none
  | [] => none

def readYear? (cs : List Char) : Option (Int × List Char) :=
  match Text.trimStart cs with
  | '-' :: rest => (readDigits? rest.length rest).map fun (y, tail) => (-(y : Int), tail)
  | '+' :: rest => (readDigits? rest.length rest).map fun (y, tail) => ((y : Int), tail)
  | rest => (readDigits? 4 rest).map fun (y, tail) => ((y : Int), tail)

/-- An optional point and digits, of which the first nine count. -/
def readFraction? (cs : List Char) : Option (Nat × List Char) :=
  match cs with
  | '.' :: rest => match readDigits? 9 rest with
    | none => none
    | some (value, tail) =>
      let places := rest.length - tail.length
      some (value * Nat.pow 10 (9 - places), tail.dropWhile Char.isDigit)
  | rest => some (0, rest)

/-- The distance from UTC in seconds: a mark for UTC itself, or a sign, two digits
of hours, blanks or colons, and two digits of minutes. -/
def readZone? (cs : List Char) : Option (Int × List Char) :=
  let numeric (sign : Int) (rest : List Char) : Option (Int × List Char) :=
    match rest with
    | h₁ :: h₂ :: tail =>
      if h₁.isDigit && h₂.isDigit then
        match tail.dropWhile fun c => c = ':' || Text.isBlank c with
        | m₁ :: m₂ :: more =>
          if m₁.isDigit && m₂.isDigit && digitValue m₁ < 6 then
            some (sign * (digitsValue [h₁, h₂] * 3600 + digitsValue [m₁, m₂] * 60), more)
          else none
        | _ => none
      else none
    | _ => none
  match cs with
  | 'Z' :: rest | 'z' :: rest => some (0, rest)
  | '+' :: rest => numeric 1 rest
  | '-' :: rest | '−' :: rest => numeric (-1) rest
  | _ =>
    if (cs.take 3).map Char.toUpper = ['U', 'T', 'C'] then some (0, cs.drop 3) else none

/-- The years that have instants, in UTC as well as at any distance from it. -/
def inYears (year : Int) : Bool :=
  -262143 ≤ year ∧ year ≤ 262142

/-- The instant of a civil date and time at a distance from UTC, if such a time exists. -/
def ofParts? (year : Int) (month day hour minute second nanoseconds : Nat) (zone : Int) :
    Option Timestamp :=
  let leap := second = 60
  let seconds := daysOfDate year month day * 86400 + hour * 3600 + minute * 60 +
    (if leap then 59 else second) - zone
  if inYears year ∧ 1 ≤ month ∧ month ≤ 12 ∧ 1 ≤ day ∧ day ≤ daysInMonth year month ∧
      hour ≤ 23 ∧ minute ≤ 59 ∧ second ≤ 60 ∧ zone.natAbs < 86400 ∧
      inYears (dateOfDays (seconds.fdiv 86400)).1 then
    some ⟨seconds, if leap then nanoseconds + 1000000000 else nanoseconds⟩
  else none

def ofText? (s : String) : Option Timestamp := do
  let (year, rest) ← readYear? s.toList
  let (month, rest) ← readPart? (← readMark? '-' rest)
  let (day, rest) ← readPart? (← readMark? '-' rest)
  let rest ← match rest with
    | 'T' :: tail | 't' :: tail | ' ' :: tail => some tail
    | _ => none
  let (hour, rest) ← readPart? rest
  let (minute, rest) ← readPart? (← readMark? ':' rest)
  let (second, rest) ← readPart? (← readMark? ':' rest)
  let (nanoseconds, rest) ← readFraction? rest
  let (zone, rest) ← readZone? (Text.trimStart rest)
  if Text.trimStart rest = [] then
    ofParts? year month day hour minute second nanoseconds zone
  else none

end Timestamp

end Parametric
