import BodyCache.Json

/-!
# Reading JSON

A strict reader: no comments, no trailing commas, no byte order mark, nothing but blanks after the
value. Numbers follow the grammar to the letter. Escaped surrogates must come in pairs, or else the
text that holds them, or the object that is named by them, is foreign.

The reader calls itself for the parts of a value. Each call comes after at least half a character
of progress, so twice the length of the text bounds the number of nested calls.

## Main statements

* `Json.parse?`: the value that a whole text denotes.
-/

namespace BodyCache.Json

/-! ### Tokens -/

/-- The blanks between tokens. -/
def isBlank (c : Char) : Bool := c = ' ' || c = '\n' || c = '\t' || c = '\r'

/-- The text after leading blanks. -/
def skipBlanks (cs : List Char) : List Char := cs.dropWhile isBlank

/-- The character that a one-letter escape denotes. -/
def simpleEscape? (c : Char) : Option Char :=
  if c = '"' ∨ c = '\\' ∨ c = '/' then some c
  else if c = 'b' then some '\x08'
  else if c = 'f' then some '\x0c'
  else if c = 'n' then some '\n'
  else if c = 'r' then some '\r'
  else if c = 't' then some '\t'
  else none

/-- The code points of a text up to its closing quotation mark, surrogates included, and the rest
of the input. -/
def scanText : List Char → Option (List Nat × List Char)
  | '"' :: rest => some ([], rest)
  | '\\' :: 'u' :: a :: b :: c :: d :: rest => do
    let unit ← Hex.number? [a, b, c, d]
    let (units, rest) ← scanText rest
    return (unit :: units, rest)
  | '\\' :: e :: rest => do
    let c ← simpleEscape? e
    let (units, rest) ← scanText rest
    return (c.toNat :: units, rest)
  | c :: rest =>
    if c.toNat < 32 ∨ c = '\\' then none
    else do
      let (units, rest) ← scanText rest
      return (c.toNat :: units, rest)
  | [] => none

/-- Whether a code point is the first half of a pair. -/
def isHighSurrogate (n : Nat) : Bool := 0xD800 ≤ n && n < 0xDC00

/-- Whether a code point is the second half of a pair. -/
def isLowSurrogate (n : Nat) : Bool := 0xDC00 ≤ n && n < 0xE000

/-- The characters of a list of code points, if all its surrogates are paired. -/
def joinPairs? : List Nat → Option (List Char)
  | [] => some []
  | [n] => if isHighSurrogate n || isLowSurrogate n then none else some [Char.ofNat n]
  | n :: m :: rest =>
    if isHighSurrogate n then
      if isLowSurrogate m then
        (joinPairs? rest).map (Char.ofNat (0x10000 + (n - 0xD800) * 0x400 + (m - 0xDC00)) :: ·)
      else none
    else if isLowSurrogate n then none
    else (joinPairs? (m :: rest)).map (Char.ofNat n :: ·)

/-- The text that a list of code points denotes. -/
def textOf? (units : List Nat) : Option String := (joinPairs? units).map String.ofList

/-- One or more digits at the front. -/
def scanDigits? (cs : List Char) : Option (List Char × List Char) :=
  match cs.takeWhile Char.isDigit with
  | [] => none
  | digits => some (digits, cs.dropWhile Char.isDigit)

/-- The digits before the point: a single zero, or digits that do not begin with zero. -/
def scanWhole? : List Char → Option (List Char × List Char)
  | '0' :: rest =>
    match rest with
    | c :: _ => if c.isDigit then none else some (['0'], rest)
    | [] => some (['0'], rest)
  | cs => scanDigits? cs

/-- The rest after a fraction, if there is one; `none` when a point has no digits after it. -/
def skipFraction? : List Char → Option (List Char)
  | '.' :: rest => (scanDigits? rest).map Prod.snd
  | cs => some cs

/-- The rest after an exponent, if there is one; `none` when it has no digits. -/
def skipExponent? : List Char → Option (List Char)
  | c :: rest =>
    if c = 'e' ∨ c = 'E' then
      match rest with
      | s :: after =>
        if s = '+' ∨ s = '-' then (scanDigits? after).map Prod.snd
        else (scanDigits? rest).map Prod.snd
      | [] => none
    else some (c :: rest)
  | [] => some []

/-- A number: a plain natural is kept, any other number is foreign. -/
def scanNumber? : List Char → Option (Json × List Char)
  | '-' :: rest => do
    let (_, rest) ← scanWhole? rest
    return (.foreign, ← skipExponent? (← skipFraction? rest))
  | cs => do
    let (digits, rest) ← scanWhole? cs
    let after ← skipExponent? (← skipFraction? rest)
    if after.length = rest.length then return (.natural (Nat.ofDigitChars 10 digits 0), rest)
    else return (.foreign, after)

/-- The rest of a word after the given letters. -/
def skipWord? (letters : List Char) (cs : List Char) : Option (List Char) :=
  if letters.isPrefixOf cs then some (cs.drop letters.length) else none

/-! ### Values -/

/-- An object, foreign if one of its names is not a text. -/
def ofMembers (members : List (Option String × Json)) : Json :=
  match members.mapM fun m => m.1.map (·, m.2) with
  | some named => .object named
  | none => .foreign

mutual

/-- A value at the front of a text that begins without blanks. -/
def value? : (fuel : Nat) → List Char → Option (Json × List Char)
  | 0, _ => none
  | fuel + 1, cs =>
    match cs with
    | '"' :: rest => do
      let (units, rest) ← scanText rest
      match textOf? units with
      | some s => return (.text s, rest)
      | none => return (.foreign, rest)
    | '[' :: rest =>
      match skipBlanks rest with
      | ']' :: rest => some (.array [], rest)
      | rest => do
        let (items, rest) ← items? fuel rest
        return (.array items, rest)
    | '\x7b' :: rest =>
      match skipBlanks rest with
      | '\x7d' :: rest => some (.object [], rest)
      | rest => do
        let (members, rest) ← members? fuel rest
        return (ofMembers members, rest)
    | 'n' :: _ => do return (.null, ← skipWord? "null".toList cs)
    | 't' :: _ => do return (.foreign, ← skipWord? "true".toList cs)
    | 'f' :: _ => do return (.foreign, ← skipWord? "false".toList cs)
    | _ => scanNumber? cs

/-- One or more items, up to the closing bracket. -/
def items? : (fuel : Nat) → List Char → Option (List Json × List Char)
  | 0, _ => none
  | fuel + 1, cs => do
    let (item, rest) ← value? fuel cs
    match skipBlanks rest with
    | ',' :: rest =>
      let (items, rest) ← items? fuel (skipBlanks rest)
      return (item :: items, rest)
    | ']' :: rest => return ([item], rest)
    | _ => none

/-- One or more members, up to the closing brace. -/
def members? : (fuel : Nat) → List Char → Option (List (Option String × Json) × List Char)
  | 0, _ => none
  | fuel + 1, cs =>
    match cs with
    | '"' :: rest => do
      let (units, rest) ← scanText rest
      match skipBlanks rest with
      | ':' :: rest =>
        let (value, rest) ← value? fuel (skipBlanks rest)
        match skipBlanks rest with
        | ',' :: rest =>
          let (members, rest) ← members? fuel (skipBlanks rest)
          return ((textOf? units, value) :: members, rest)
        | '\x7d' :: rest => return ([(textOf? units, value)], rest)
        | _ => none
      | _ => none
    | _ => none

end

/-- The value that a whole text denotes. -/
def parse? (text : String) : Option Json := do
  let cs := text.toList
  let (value, rest) ← value? (2 * cs.length + 2) (skipBlanks cs)
  if skipBlanks rest = [] then return value else none

end BodyCache.Json
