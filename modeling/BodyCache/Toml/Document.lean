import BodyCache.Toml.Item
import BodyCache.Toml.Lexeme
import BodyCache.Toml.Moment
import BodyCache.Toml.Number

/-!
# Documents of TOML

Values, lines and whole documents. The readers of values call each other for the parts of an array
or an inline table; every call comes after some progress, so the length of the text bounds their
number. Values are nested within a fixed limit.

## Main statements

* `Toml.parse?`: what a document holds, if it is well formed.
-/

namespace BodyCache.Toml

/-! ### Values -/

/-- A value of a single token. -/
def scalar? (cs : List Char) : Option (Item × List Char) :=
  match cs with
  | '"' :: _ | '\'' :: _ => (string? cs).map fun s => (.text (String.ofList s.1), s.2)
  | 't' :: _ => (word? "true".toList cs).map fun rest => (.boolean true, rest)
  | 'f' :: _ => (word? "false".toList cs).map fun rest => (.boolean false, rest)
  | _ =>
    match moment? cs with
    | some rest => some (.moment, rest)
    | none => (number? cs).map fun rest => (.number, rest)

mutual

/-- A value that is nested at most `depth` levels deep. -/
def value? : (fuel depth : Nat) → List Char → Option (Item × List Char)
  | 0, _, _ => none
  | fuel + 1, depth, cs =>
    match depth, cs with
    | 0, '[' :: _ | 0, '\x7b' :: _ => none
    | depth + 1, '[' :: rest => do
      match ← skipSpace? false rest with
      | ']' :: rest => return (.array [], rest)
      | rest =>
        let (items, rest) ← items? fuel depth rest
        return (.array items, rest)
    | depth + 1, '\x7b' :: rest =>
      match skipBlanks rest with
      | '\x7d' :: rest => some (.inline [], rest)
      | rest => do
        let (entries, rest) ← pairs? fuel depth [] rest
        return (.inline entries, rest)
    | _, cs => scalar? cs

/-- One or more items, up to the closing bracket; a comma may follow the last one. -/
def items? : (fuel depth : Nat) → List Char → Option (List Item × List Char)
  | 0, _, _ => none
  | fuel + 1, depth, cs => do
    let (item, rest) ← value? fuel depth cs
    match ← skipSpace? false rest with
    | ',' :: rest =>
      match ← skipSpace? false rest with
      | ']' :: rest => return ([item], rest)
      | rest =>
        let (items, rest) ← items? fuel depth rest
        return (item :: items, rest)
    | ']' :: rest => return ([item], rest)
    | _ => none

/-- One or more pairs of an inline table, up to the closing brace. -/
def pairs? : (fuel depth : Nat) → Entries → List Char → Option (Entries × List Char)
  | 0, _, _, _ => none
  | fuel + 1, depth, entries, cs => do
    let (key, rest) ← key? cs
    match rest with
    | '=' :: rest =>
      let (item, rest) ← value? fuel depth (skipBlanks rest)
      let entries ← insertPair? key item entries
      match skipBlanks rest with
      | ',' :: rest => pairs? fuel depth entries rest
      | '\x7d' :: rest => return (entries, rest)
      | _ => none
    | _ => none

end

/-! ### Lines -/

/-- The effect of a line that begins with a header. -/
def header? (a : Assembly) : List Char → Option (Assembly × List Char)
  | '[' :: '[' :: rest => do
    let (path, rest) ← key? rest
    match rest with
    | ']' :: ']' :: rest => return (← a.openElement? path, ← lineRest? rest)
    | _ => none
  | '[' :: rest => do
    let (path, rest) ← key? rest
    match rest with
    | ']' :: rest => return (← a.openTable? path, ← lineRest? rest)
    | _ => none
  | _ => none

/-- The effect of a line that begins with a key. -/
def pair? (a : Assembly) (cs : List Char) : Option (Assembly × List Char) := do
  let (key, rest) ← key? cs
  match rest with
  | '=' :: rest =>
    let rest := skipBlanks rest
    let (item, rest) ← value? (2 * rest.length + 2) nestingLimit rest
    return (← a.addPair? key item, ← lineRest? rest)
  | _ => none

/-- The effect of the remaining lines. -/
def lines? : (fuel : Nat) → Assembly → List Char → Option Entries
  | 0, _, _ => none
  | fuel + 1, a, cs =>
    match skipBlanks cs with
    | [] => a.close?
    | '[' :: rest => do
      let (a, rest) ← header? a ('[' :: rest)
      lines? fuel a rest
    | c :: rest =>
      if c = '#' ∨ c = '\n' ∨ c = '\r' then do lines? fuel a (← lineRest? (c :: rest))
      else do
        let (a, rest) ← pair? a (c :: rest)
        lines? fuel a rest

/-- The text without a byte order mark at its beginning. -/
def skipMark : List Char → List Char
  | '\ufeff' :: rest => rest
  | cs => cs

/-- What a document holds. -/
def parse? (text : String) : Option Entries :=
  let cs := skipMark text.toList
  lines? (cs.length + 1) {} cs

end BodyCache.Toml
