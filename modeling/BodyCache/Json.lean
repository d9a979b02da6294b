import BodyCache.Hex

/-!
# JSON values

The JSON values that the formats of this library are made of, and their indented text: one member
or item per line, two blanks per level, a colon and a blank after a name, and an empty list or
object closed on the same line. In texts only the quotation mark, the reverse solidus and the
control characters below the blank are escaped.

Truth values, numbers that are not plain naturals and texts with an unpaired surrogate are never
asked for. Such a value is only ever skipped, and what it was is not kept.
-/

namespace BodyCache

/-- A JSON value. -/
inductive Json where
  | null
  | natural (n : Nat)
  | text (s : String)
  | array (items : List Json)
  | object (members : List (String × Json))
  /-- A well-formed value that no format asks for. -/
  | foreign
  deriving Inhabited, Repr

namespace Json

/-! ### Writing -/

/-- A character inside a quoted text. -/
def escaped (c : Char) : List Char :=
  if c = '"' then ['\\', '"']
  else if c = '\\' then ['\\', '\\']
  else if c = '\x08' then ['\\', 'b']
  else if c = '\x0c' then ['\\', 'f']
  else if c = '\n' then ['\\', 'n']
  else if c = '\r' then ['\\', 'r']
  else if c = '\t' then ['\\', 't']
  else if c.toNat < 32 then
    ['\\', 'u', '0', '0', Hex.digit (c.toNat / 16), Hex.digit (c.toNat % 16)]
  else [c]

/-- A quoted text. -/
def quoted (s : String) : List Char := '"' :: (s.toList.flatMap escaped ++ ['"'])

/-- The end of a line and the blanks that open the next one. -/
def newline (level : Nat) : List Char := '\n' :: List.replicate (2 * level) ' '

mutual

/-- The text of a value that stands at the given level of indentation. -/
def render (level : Nat) : Json → List Char
  | .null => "null".toList
  | .natural n => Nat.toDigits 10 n
  | .text s => quoted s
  | .array [] => ['[', ']']
  | .array (item :: items) =>
    '[' :: (newline (level + 1) ++ (item.render (level + 1) ++
      (renderItems (level + 1) items ++ (newline level ++ [']']))))
  | .object [] => ['\x7b', '\x7d']
  | .object ((name, value) :: members) =>
    '\x7b' :: (newline (level + 1) ++ (quoted name ++ (':' :: ' ' ::
      (value.render (level + 1) ++ (renderMembers (level + 1) members ++
        (newline level ++ ['\x7d']))))))
  | .foreign => "false".toList

/-- The items after the first one. -/
def renderItems (level : Nat) : List Json → List Char
  | [] => []
  | item :: items => ',' :: (newline level ++ (item.render level ++ renderItems level items))

/-- The members after the first one. -/
def renderMembers (level : Nat) : List (String × Json) → List Char
  | [] => []
  | (name, value) :: members =>
    ',' :: (newline level ++ (quoted name ++ (':' :: ' ' ::
      (value.render level ++ renderMembers level members))))

end

/-- The indented text of a value. -/
def pretty (j : Json) : String := String.ofList (j.render 0)

end Json

end BodyCache
