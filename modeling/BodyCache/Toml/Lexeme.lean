import BodyCache.Hex

/-!
# Lexemes of TOML

Blanks, line ends, comments, keys and strings of the configuration format TOML 1.0. Each function
reads from the front of a text and returns the rest, or `none` when the text is not well formed.

A line ends with a line feed, or with a carriage return and a line feed. Control characters other
than the tab occur nowhere, not even in comments.

## Main statements

* `Toml.key?`: a dotted key.
* `Toml.string?`: a string of any of the four kinds.
-/

namespace BodyCache.Toml

/-! ### Blanks, line ends and comments -/

/-- The blanks within a line. -/
def isBlank (c : Char) : Bool := c = ' ' || c = '\t'

/-- The text after leading blanks. -/
def skipBlanks (cs : List Char) : List Char := cs.dropWhile isBlank

/-- The characters that may stand in comments and, quoted, in strings. -/
def isPrintable (c : Char) : Bool := c = '\t' || (32 ≤ c.toNat && c.toNat ≠ 127)

/-- The text after a line end. -/
def newline? : List Char → Option (List Char)
  | '\n' :: rest => some rest
  | '\r' :: '\n' :: rest => some rest
  | _ => none

/-- The text after a line end, or nothing at the end of the text. -/
def lineEnd? : List Char → Option (List Char)
  | [] => some []
  | cs => newline? cs

/-- The text after an optional comment. -/
def skipComment : List Char → List Char
  | '#' :: rest => rest.dropWhile isPrintable
  | cs => cs

/-- What may follow on a line: blanks, a comment and the line end. -/
def lineRest? (cs : List Char) : Option (List Char) := lineEnd? (skipComment (skipBlanks cs))

/-- The text after blanks, line ends and comments, as they may stand between the items of an
array. -/
def skipSpace? : (inComment : Bool) → List Char → Option (List Char)
  | _, [] => none
  | true, '\n' :: rest | true, '\r' :: '\n' :: rest => skipSpace? false rest
  | true, c :: rest => if isPrintable c then skipSpace? true rest else none
  | false, '\n' :: rest | false, '\r' :: '\n' :: rest => skipSpace? false rest
  | false, '#' :: rest => skipSpace? true rest
  | false, c :: rest => if isBlank c then skipSpace? false rest else some (c :: rest)

/-! ### Strings -/

/-- The character that an escape of one letter denotes. -/
def simpleEscape? (c : Char) : Option Char :=
  if c = '"' ∨ c = '\\' then some c
  else if c = 'b' then some '\x08'
  else if c = 'f' then some '\x0c'
  else if c = 'n' then some '\n'
  else if c = 'r' then some '\r'
  else if c = 't' then some '\t'
  else none

/-- The character that hexadecimal digits denote; surrogates are not characters. -/
def charOfDigits? (digits : List Char) : Option Char := do
  let n ← Hex.number? digits
  if n.isValidChar then return Char.ofNat n else none

/-- One character in front of a string that was read. -/
def prepend (c : Char) (scanned : List Char × List Char) : List Char × List Char :=
  (c :: scanned.1, scanned.2)

/-- The content of a basic string, up to its closing quotation mark. -/
def scanBasic? : List Char → Option (List Char × List Char)
  | [] => none
  | '"' :: rest => some ([], rest)
  | '\\' :: 'u' :: a :: b :: c :: d :: rest => do
    return prepend (← charOfDigits? [a, b, c, d]) (← scanBasic? rest)
  | '\\' :: 'U' :: a :: b :: c :: d :: e :: f :: g :: h :: rest => do
    return prepend (← charOfDigits? [a, b, c, d, e, f, g, h]) (← scanBasic? rest)
  | '\\' :: e :: rest => do return prepend (← simpleEscape? e) (← scanBasic? rest)
  | c :: rest =>
    if isPrintable c ∧ c ≠ '\\' then do return prepend c (← scanBasic? rest) else none

/-- The content of a literal string, up to its closing apostrophe. -/
def scanLiteral? : List Char → Option (List Char × List Char)
  | [] => none
  | '\'' :: rest => some ([], rest)
  | c :: rest => if isPrintable c then do return prepend c (← scanLiteral? rest) else none

/-- The closing of a string of several lines, after three marks: up to two more belong to the
content. -/
def closing (mark : Char) : List Char → List Char × List Char
  | a :: b :: rest =>
    if a = mark ∧ b = mark then ([mark, mark], rest)
    else if a = mark then ([mark], b :: rest)
    else ([], a :: b :: rest)
  | [a] => if a = mark then ([mark], []) else ([], [a])
  | [] => ([], [])

/-- Whether a line ends after leading blanks. -/
def endsLine (cs : List Char) : Bool := (newline? (skipBlanks cs)).isSome

/-- The content of a basic string of several lines. After a reverse solidus at the end of a line,
blanks and line ends are skipped up to the next other character. -/
def scanBasicLines? : (skipping : Bool) → List Char → Option (List Char × List Char)
  | _, [] => none
  | true, ' ' :: rest | true, '\t' :: rest | true, '\n' :: rest | true, '\r' :: '\n' :: rest =>
    scanBasicLines? true rest
  | _, '"' :: '"' :: '"' :: rest => some (closing '"' rest)
  | _, '\\' :: 'u' :: a :: b :: c :: d :: rest => do
    return prepend (← charOfDigits? [a, b, c, d]) (← scanBasicLines? false rest)
  | _, '\\' :: 'U' :: a :: b :: c :: d :: e :: f :: g :: h :: rest => do
    return prepend (← charOfDigits? [a, b, c, d, e, f, g, h]) (← scanBasicLines? false rest)
  | _, '\\' :: e :: rest =>
    if endsLine (e :: rest) then scanBasicLines? true (e :: rest)
    else do return prepend (← simpleEscape? e) (← scanBasicLines? false rest)
  | _, '\n' :: rest | _, '\r' :: '\n' :: rest => do
    return prepend '\n' (← scanBasicLines? false rest)
  | _, c :: rest =>
    if isPrintable c ∧ c ≠ '\\' then do return prepend c (← scanBasicLines? false rest)
    else none

/-- The content of a literal string of several lines. -/
def scanLiteralLines? : List Char → Option (List Char × List Char)
  | [] => none
  | '\'' :: '\'' :: '\'' :: rest => some (closing '\'' rest)
  | '\n' :: rest | '\r' :: '\n' :: rest => do return prepend '\n' (← scanLiteralLines? rest)
  | c :: rest => if isPrintable c then do return prepend c (← scanLiteralLines? rest) else none

/-- The text after a line end, if it begins with one. -/
def skipNewline (cs : List Char) : List Char := (newline? cs).getD cs

/-- A string of any kind, from its opening mark on. -/
def string? : List Char → Option (List Char × List Char)
  | '"' :: '"' :: '"' :: rest => scanBasicLines? false (skipNewline rest)
  | '"' :: rest => scanBasic? rest
  | '\'' :: '\'' :: '\'' :: rest => scanLiteralLines? (skipNewline rest)
  | '\'' :: rest => scanLiteral? rest
  | _ => none

/-! ### Keys -/

/-- The characters of a key that is not quoted. -/
def isKeyChar (c : Char) : Bool := c.isAlphanum || c = '_' || c = '-'

/-- One part of a key. -/
def keyPart? : List Char → Option (String × List Char)
  | '"' :: rest => (scanBasic? rest).map fun s => (String.ofList s.1, s.2)
  | '\'' :: rest => (scanLiteral? rest).map fun s => (String.ofList s.1, s.2)
  | cs =>
    match cs.takeWhile isKeyChar with
    | [] => none
    | name => some (String.ofList name, cs.dropWhile isKeyChar)

/-- The parts of a key that has at most the given number of parts. -/
def keyParts? : (limit : Nat) → List Char → Option (List String × List Char)
  | 0, _ => none
  | limit + 1, cs => do
    let (first, rest) ← keyPart? (skipBlanks cs)
    match skipBlanks rest with
    | '.' :: rest =>
      let (parts, rest) ← keyParts? limit rest
      return (first :: parts, rest)
    | rest => return ([first], rest)

/-- How deep values may be nested and how many parts a key may have. -/
def nestingLimit : Nat := 79

/-- A dotted key, with the blanks around it. -/
def key? (cs : List Char) : Option (List String × List Char) := keyParts? nestingLimit cs

end BodyCache.Toml
