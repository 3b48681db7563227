/-!
Dates and times of TOML, read as the text of their value: a letter T between date and time, a
fraction of a second without closing zeros, and no negative offset of zero.
-/
namespace Caption

namespace Toml

/-- Two digits, if their number lies between bounds, and what follows them. -/
def twoDigits? (least most : Nat) : List Char → Option (List Char × List Char)
  | tens :: ones :: rest =>
    let value := Nat.ofDigitChars 10 [tens, ones] 0
    if tens.isDigit ∧ ones.isDigit ∧ least ≤ value ∧ value ≤ most then some ([tens, ones], rest)
    else none
  | _ => none

def daysIn (year month : Nat) : Nat :=
  if month = 2 then
    if year % 4 = 0 ∧ (year % 100 ≠ 0 ∨ year % 400 = 0) then 29 else 28
  else if month = 4 ∨ month = 6 ∨ month = 9 ∨ month = 11 then 30
  else 31

/-- What follows a character that must come next. -/
def after? (character : Char) : List Char → Option (List Char)
  | [] => none
  | first :: rest => if first = character then some rest else none

def date? (source : List Char) : Option (List Char × List Char) := do
  let year := source.take 4
  if year.length < 4 ∨ ¬year.all Char.isDigit then none
  let rest ← after? '-' (source.drop 4)
  let (month, rest) ← twoDigits? 1 12 rest
  let rest ← after? '-' rest
  let number (digits : List Char) : Nat := Nat.ofDigitChars 10 digits 0
  let (day, rest) ← twoDigits? 1 (daysIn (number year) (number month)) rest
  pure (year ++ '-' :: month ++ '-' :: day, rest)

/-- A fraction of a second, if there is one, to nine digits. -/
def secondFraction (source : List Char) : List Char × List Char :=
  match source with
  | '.' :: rest =>
    match rest.takeWhile Char.isDigit with
    | [] => ([], source)
    | digits =>
      match ((digits.take 9).reverse.dropWhile (· == '0')).reverse with
      | [] => ([], rest.dropWhile Char.isDigit)
      | kept => ('.' :: kept, rest.dropWhile Char.isDigit)
  | _ => ([], source)

/-- The greatest numbers that a time may be written with. -/
structure Limits where
  hour : Nat
  offsetHour : Nat
  offsetMinute : Nat
deriving DecidableEq, Repr

/-- Where a document holds a date or time, hours and minutes are those of a clock. -/
def Limits.literal : Limits := ⟨23, 23, 59⟩

/-- Where a string names a date or time, the hour may be the end of the day, and an offset may have
any two digits for its hours and for its minutes. -/
def Limits.string : Limits := ⟨24, 99, 99⟩

/-- A time of day, and what follows it. A minute may have a leap second. -/
def time? (limits : Limits) (source : List Char) : Option (List Char × List Char) := do
  let (hour, rest) ← twoDigits? 0 limits.hour source
  let rest ← after? ':' rest
  let (minute, rest) ← twoDigits? 0 59 rest
  let rest ← after? ':' rest
  let (second, rest) ← twoDigits? 0 60 rest
  let (fraction, rest) := secondFraction rest
  pure (hour ++ ':' :: minute ++ ':' :: second ++ fraction, rest)

/-- A number below a hundred in two digits. -/
def inTwoDigits (number : Nat) : List Char :=
  [Nat.digitChar (number / 10), Nat.digitChar (number % 10)]

/-- An offset from universal time of at most a day, and what follows it. It is written with fewer
than sixty minutes. -/
def offset? (limits : Limits) : List Char → Option (List Char × List Char)
  | [] => none
  | first :: rest =>
    if first = 'Z' ∨ first = 'z' then some (['Z'], rest)
    else if first = '+' ∨ first = '-' then do
      let (hours, rest) ← twoDigits? 0 limits.offsetHour rest
      let rest ← after? ':' rest
      let (minutes, rest) ← twoDigits? 0 limits.offsetMinute rest
      let total := 60 * Nat.ofDigitChars 10 hours 0 + Nat.ofDigitChars 10 minutes 0
      if 24 * 60 < total then none
      let sign := if total = 0 then '+' else first
      pure (sign :: inTwoDigits (total / 60) ++ ':' :: inTwoDigits (total % 60), rest)
    else none

/-- The time that follows a date behind a letter or a space. -/
def timeAfterDate? (limits : Limits) : List Char → Option (List Char × List Char)
  | [] => none
  | first :: rest =>
    if first = 'T' ∨ first = 't' ∨ first = ' ' then do
      let (time, rest) ← time? limits rest
      let (offset, rest) := (offset? limits rest).getD ([], rest)
      pure ('T' :: time ++ offset, rest)
    else none

/-- A date, a time, or both, and what follows them. -/
def moment? (limits : Limits) (source : List Char) : Option (List Char × List Char) :=
  match date? source with
  | some (date, rest) =>
    let (time, rest) := (timeAfterDate? limits rest).getD ([], rest)
    some (date ++ time, rest)
  | none => time? limits source

/-- The date, time, or both that a string names as a whole. -/
def momentNamed? (name : String) : Option String :=
  match moment? .string name.toList with
  | some (moment, []) => some (String.ofList moment)
  | _ => none

end Toml

end Caption
