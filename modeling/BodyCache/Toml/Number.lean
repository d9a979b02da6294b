import BodyCache.Hex

/-!
# Numbers of TOML

Integers and floating-point numbers, of which only the form matters here. Single underscores may
stand between digits. Integers fit into 64 bits; a floating-point number must not be so large that
it rounds to positive infinity.

## Main statements

* `Toml.number?`: the rest after a number.
-/

namespace BodyCache.Toml

/-- The digits after a first digit, without the underscores between them. -/
def moreDigits? (isDigit : Char → Bool) : List Char → Option (List Char × List Char)
  | [] => some ([], [])
  | '_' :: rest =>
    match rest with
    | [] => none
    | c :: rest =>
      if isDigit c then (moreDigits? isDigit rest).map fun s => (c :: s.1, s.2) else none
  | c :: rest =>
    if isDigit c then (moreDigits? isDigit rest).map fun s => (c :: s.1, s.2)
    else some ([], c :: rest)

/-- One or more digits. -/
def digits? (isDigit : Char → Bool) : List Char → Option (List Char × List Char)
  | c :: rest =>
    if isDigit c then (moreDigits? isDigit rest).map fun s => (c :: s.1, s.2) else none
  | [] => none

/-- The digits of a whole decimal number; a leading zero stands alone. -/
def wholeDigits? : List Char → Option (List Char × List Char)
  | '0' :: rest => some (['0'], rest)
  | cs => digits? Char.isDigit cs

/-- Whether a number is negative, and the text after its sign. -/
def sign : List Char → Bool × List Char
  | '-' :: rest => (true, rest)
  | '+' :: rest => (false, rest)
  | cs => (false, cs)

/-! ### Floating-point numbers -/

/-- The least number that rounds to infinity when it is stored in 64 bits. -/
def overflowBound : Nat := (1 <<< 1024) - (1 <<< 970)

/-- Whether `digits * 10 ^ exponent` reaches the bound. Outside the range in which this depends on
all digits, their number decides. -/
def overflows (digits : List Char) (exponent : Int) : Bool :=
  let significant := digits.dropWhile (· = '0')
  let magnitude := exponent + significant.length
  if significant = [] then false
  else if 309 < magnitude then true
  else if magnitude < 309 then false
  else
    let n := Nat.ofDigitChars 10 significant 0
    if 0 ≤ exponent then overflowBound ≤ n * Nat.pow 10 exponent.toNat
    else overflowBound * Nat.pow 10 (-exponent).toNat ≤ n

/-- A fraction: its digits, none if there is no point. -/
def fraction? : List Char → Option (List Char × List Char)
  | '.' :: rest => digits? Char.isDigit rest
  | cs => some ([], cs)

/-- An exponent: its value, zero if there is none. -/
def exponent? : List Char → Option (Int × List Char)
  | c :: rest =>
    if c = 'e' ∨ c = 'E' then do
      let (negative, rest) := sign rest
      let (digits, rest) ← digits? Char.isDigit rest
      let n : Int := Nat.ofDigitChars 10 digits 0
      return (if negative then -n else n, rest)
    else some (0, c :: rest)
  | [] => some (0, [])

/-- The rest after a word. -/
def word? (letters : List Char) (cs : List Char) : Option (List Char) :=
  if letters.isPrefixOf cs then some (cs.drop letters.length) else none

/-! ### Integers -/

/-- One more than the largest integer: half the number of 64-bit words. -/
def integerLimit : Nat := UInt64.size / 2

/-- Whether a decimal integer fits into 64 bits. -/
def fits (negative : Bool) (n : Nat) : Bool :=
  if negative then n ≤ integerLimit else n < integerLimit

/-- The digits of a base. -/
def isDigitOf (base : Nat) (c : Char) : Bool := (Hex.value? c).any (· < base)

/-- An integer of another base, after its mark. -/
def based? (base : Nat) (cs : List Char) : Option (List Char) := do
  let (digits, rest) ← digits? (isDigitOf base) cs
  let n := digits.foldl (fun n c => base * n + (Hex.value? c).getD 0) 0
  if n < integerLimit then return rest else none

/-- A decimal integer or a floating-point number, after its sign. -/
def decimal? (negative : Bool) (cs : List Char) : Option (List Char) := do
  let (whole, rest) ← wholeDigits? cs
  let (fraction, afterFraction) ← fraction? rest
  let (exponent, after) ← exponent? afterFraction
  if after.length = rest.length then
    if fits negative (Nat.ofDigitChars 10 whole 0) then return rest else none
  else if !negative && overflows (whole ++ fraction) (exponent - fraction.length) then none
  else return after

/-- The rest after a number. -/
def number? : List Char → Option (List Char)
  | '0' :: 'x' :: rest => based? 16 rest
  | '0' :: 'o' :: rest => based? 8 rest
  | '0' :: 'b' :: rest => based? 2 rest
  | cs =>
    let (negative, rest) := sign cs
    match word? "inf".toList rest, word? "nan".toList rest with
    | some after, _ | none, some after => some after
    | none, none => decimal? negative rest

end BodyCache.Toml
