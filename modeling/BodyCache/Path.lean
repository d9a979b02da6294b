/-!
# Paths

A path is a text with slashes between its segments. It is absolute if it begins with a slash.
Empty segments and segments of a single dot do not count, with one exception: a dot that opens a
relative path is a part of it. The last part that counts is the name of the file, unless it is a
dot or two dots. A name may have an extension, which follows its last dot; a dot that opens the
name does not begin an extension.

## Main statements

* `Path.join`, `Path.withExtension`, `Path.parent?`, `Path.fileStem?`.
* `Path.joined_split`: cutting a path into segments and joining them again changes nothing.
-/

namespace BodyCache

/-- A segment of a path. -/
abbrev Segment := List Char

/-- A path, by its text. -/
structure Path where
  text : String
  deriving DecidableEq, Repr

namespace Path

/-! ### Segments -/

/-- The segments of a text, empty ones included; there is always at least one. -/
def split : List Char → List Segment
  | [] => [[]]
  | c :: cs =>
    if c = '/' then [] :: split cs
    else
      match split cs with
      | [] => [[c]]
      | s :: ss => (c :: s) :: ss

/-- The text that consists of the given segments. -/
def joined : List Segment → List Char
  | [] => []
  | [s] => s
  | s :: t :: ss => s ++ '/' :: joined (t :: ss)

/-- There is always a segment. -/
theorem split_ne_nil (cs : List Char) : split cs ≠ [] := by
  cases cs with
  | nil => simp [split]
  | cons c cs =>
    rw [split]
    split
    · simp
    · split <;> simp

/-- Cutting a path into segments and joining them again changes nothing. -/
theorem joined_split (cs : List Char) : joined (split cs) = cs := by
  induction cs with
  | nil => rfl
  | cons c cs ih =>
    rw [split]
    split
    · next hc =>
      cases h : split cs with
      | nil => exact absurd h (split_ne_nil cs)
      | cons s ss => rw [joined, ← h, ih, hc, List.nil_append]
    · cases h : split cs with
      | nil => exact absurd h (split_ne_nil cs)
      | cons s ss =>
        rw [h] at ih
        cases ss with
        | nil => simpa [joined] using ih
        | cons t ss => simpa [joined] using ih

/-- Whether a segment after the first one counts. -/
def counts (s : Segment) : Bool := s ≠ [] && s ≠ ['.']

/-- The segments without those at the end that do not count. -/
def trimmed (segments : List Segment) : List Segment :=
  (segments.reverse.dropWhile fun s => !counts s).reverse

/-- Whether a text is that of an absolute path. -/
def isAbsoluteText (cs : List Char) : Bool := cs.head? = some '/'

/-- The first segment and those that count, up to the last one, of the rest. The first segment of
an absolute path is empty and stands for the root. -/
def parts (cs : List Char) : Segment × List Segment :=
  match split cs with
  | [] => ([], [])
  | first :: rest => (first, trimmed rest)

/-- The text of the given parts. The root alone keeps its slash. -/
def textOfParts (absolute : Bool) : Segment × List Segment → List Char
  | (first, []) => if absolute then ['/'] else first
  | (first, rest) => joined (first :: rest)

/-! ### Names -/

/-- Whether a segment can be the name of a file. -/
def isName (s : Segment) : Bool := s ≠ [] && s ≠ ['.'] && s ≠ ['.', '.']

/-- The name of the file, in a text. -/
def nameIn? (cs : List Char) : Option Segment :=
  let (first, rest) := parts cs
  let last := rest.getLast?.getD (if isAbsoluteText cs then [] else first)
  if isName last then some last else none

/-- What stands before and after the last dot of a name, unless nothing stands before it. -/
def splitName (name : Segment) : Segment × Option Segment :=
  let after := name.reverse.takeWhile (· ≠ '.')
  let before := (name.reverse.drop (after.length + 1)).reverse
  if after.length = name.length ∨ before = [] then (name, none)
  else (before, some after.reverse)

/-- The text up to the name of the file, with the slash before it. -/
def beforeName (cs : List Char) : List Char :=
  let (first, rest) := parts cs
  if rest = [] then [] else joined (first :: rest.dropLast) ++ ['/']

/-- The text with what follows the stem of its name replaced by an extension. -/
def putExtension (cs extension : List Char) : List Char :=
  match nameIn? cs with
  | some name => beforeName cs ++ (splitName name).1 ++ '.' :: extension
  | none => cs

/-! ### Operations -/

/-- Whether the path is absolute. -/
def isAbsolute (p : Path) : Bool := isAbsoluteText p.text.toList

/-- The name of the file without its extension. -/
def fileStem? (p : Path) : Option String :=
  (nameIn? p.text.toList).map fun name => String.ofList (splitName name).1

/-- The path of the directory that holds the last part; `none` if the path has no parts. -/
def parent? (p : Path) : Option Path :=
  let cs := p.text.toList
  let absolute := isAbsoluteText cs
  let (first, rest) := parts cs
  if rest = [] then
    if absolute ∨ first = [] then none else some ⟨""⟩
  else some ⟨String.ofList (textOfParts absolute (first, trimmed rest.dropLast))⟩

/-- A path seen from another one. -/
def join (base p : Path) : Path :=
  if p.isAbsolute then p
  else if base.text = "" ∨ base.text.toList.getLast? = some '/' then ⟨base.text ++ p.text⟩
  else ⟨base.text ++ "/" ++ p.text⟩

/-- The path with another extension. An old extension is first cut off at the end of the text; a
path whose name is gone after that is left as it is. -/
def withExtension (p : Path) (extension : String) : Path :=
  let cs := p.text.toList
  match (nameIn? cs).bind fun name => (splitName name).2 with
  | some old =>
    ⟨String.ofList (putExtension (cs.take (cs.length - old.length)) extension.toList)⟩
  | none => ⟨String.ofList (putExtension cs extension.toList)⟩

end Path

end BodyCache
