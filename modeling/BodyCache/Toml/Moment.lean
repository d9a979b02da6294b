/-!
# Dates and times of TOML

A date, a time of day, or both with an optional offset. Days exist in their month, hours are below
24, minutes below 60, and seconds up to 60 for the sake of leap seconds.

## Main statements

* `Toml.moment?`: the rest after a date or time.
-/

namespace BodyCache.Toml

/-- A number of exactly `count` digits. -/
def fixedDigits? (count : Nat) (cs : List Char) : Option (Nat × List Char) :=
  let digits := cs.take count
  if digits.length = count ∧ digits.all Char.isDigit then
    some (Nat.ofDigitChars 10 digits 0, cs.drop count)
  else none

/-- A number of two digits between two bounds. -/
def twoDigits? (low high : Nat) (cs : List Char) : Option (Nat × List Char) := do
  let (n, rest) ← fixedDigits? 2 cs
  if low ≤ n ∧ n ≤ high then return (n, rest) else none

/-- The rest after a given character. -/
def char? (c : Char) : List Char → Option (List Char)
  | d :: rest => if d = c then some rest else none
  | [] => none

/-- The number of days of a month. -/
def daysIn (year month : Nat) : Nat :=
  if month = 2 then
    if year % 4 = 0 ∧ (year % 100 ≠ 0 ∨ year % 400 = 0) then 29 else 28
  else if month = 4 ∨ month = 6 ∨ month = 9 ∨ month = 11 then 30
  else 31

/-- The rest after a date. -/
def date? (cs : List Char) : Option (List Char) := do
  let (year, rest) ← fixedDigits? 4 cs
  let (month, rest) ← twoDigits? 1 12 (← char? '-' rest)
  let (_, rest) ← twoDigits? 1 (daysIn year month) (← char? '-' rest)
  return rest

/-- The rest after the fraction of a second, if there is one. -/
def secondFraction? : List Char → Option (List Char)
  | '.' :: rest =>
    match rest.takeWhile Char.isDigit with
    | [] => none
    | _ => some (rest.dropWhile Char.isDigit)
  | cs => some cs

/-- The rest after an hour and a minute. -/
def hourMinute? (cs : List Char) : Option (List Char) := do
  let (_, rest) ← twoDigits? 0 23 cs
  let (_, rest) ← twoDigits? 0 59 (← char? ':' rest)
  return rest

/-- The rest after a time of day. -/
def time? (cs : List Char) : Option (List Char) := do
  let rest ← hourMinute? cs
  let (_, rest) ← twoDigits? 0 60 (← char? ':' rest)
  secondFraction? rest

/-- The rest after an offset, if there is one. -/
def offset? : List Char → Option (List Char)
  | c :: rest =>
    if c = 'Z' ∨ c = 'z' then some rest
    else if c = '+' ∨ c = '-' then hourMinute? rest
    else some (c :: rest)
  | [] => some []

/-- The rest after a date, which a time may follow, or after a time alone. -/
def moment? (cs : List Char) : Option (List Char) :=
  match date? cs with
  | some rest =>
    match rest with
    | c :: after =>
      if c = 'T' ∨ c = 't' ∨ c = ' ' then
        match time? after with
        | some timed => offset? timed
        | none => some rest
      else some rest
    | [] => some rest
  | none => time? cs

end BodyCache.Toml
