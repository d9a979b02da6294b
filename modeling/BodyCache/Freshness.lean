import BodyCache.FileTree
import BodyCache.Fingerprint
import BodyCache.Table

/-!
# Freshness of source modules

A module is unmodified if its file has the fingerprint that was recorded for it. A module without
a record and a module whose file cannot be read count as modified. The verdict on a module is
settled once: the first verdict that is settled for a name stays for the whole session. Judging a
module takes three steps: look for a settled verdict, otherwise inspect the file, and settle the
verdict.

## Main statements

* `Freshness.judge`: the verdict on a module.
* `Freshness.settled?_settle_self`: what settling returns is what is settled
  from then on.
-/

namespace BodyCache

/-- A source module: its name and the path of its file. -/
structure SourceModule where
  name : String
  path : Path
  deriving DecidableEq, Repr

/-- The recorded fingerprints, and for the names that were judged whether they are modified. -/
structure Freshness where
  recorded : Table String Fingerprint := .empty
  verdicts : Table String Bool := .empty

namespace Freshness

/-- Freshness against recorded fingerprints, with nothing judged yet. -/
def ofRecords (records : List (String × Fingerprint)) : Freshness :=
  { recorded := .ofList records }

/-- The settled verdict on a name. -/
def settled? (f : Freshness) (name : String) : Option Bool := f.verdicts.find? name

/-- Whether the file of a module differs from the record, and why it could not be read if so. -/
def inspect (f : Freshness) (files : FileTree) (m : SourceModule) : Bool × Option FileError :=
  match f.recorded.find? m.name with
  | none => (true, none)
  | some fingerprint =>
    match files.read m.path with
    | .ok content => (decide (Fingerprint.ofContent content ≠ fingerprint), none)
    | .error e => (true, some e)

/-- Settles a verdict unless there is one already; the result is the verdict that stays. -/
def settle (f : Freshness) (name : String) (verdict : Bool) : Bool × Freshness :=
  match f.verdicts.find? name with
  | some earlier => (earlier, f)
  | none => (verdict, { f with verdicts := f.verdicts.insert name verdict })

/-- What judging a module gives. -/
structure Judgement where
  modified : Bool
  unreadable : Option FileError
  freshness : Freshness

/-- Whether a module is modified. -/
def judge (f : Freshness) (files : FileTree) (m : SourceModule) : Judgement :=
  match f.settled? m.name with
  | some verdict => ⟨verdict, none, f⟩
  | none =>
    let (verdict, unreadable) := f.inspect files m
    let (stays, settled) := f.settle m.name verdict
    ⟨stays, unreadable, settled⟩

/-- The verdict that settling returns is the settled one. -/
theorem settled?_settle_self (f : Freshness) (name : String) (verdict : Bool) :
    (f.settle name verdict).2.settled? name = some (f.settle name verdict).1 := by
  simp only [settle, settled?]
  cases h : f.verdicts.find? name with
  | none => simp
  | some earlier => simpa using h

/-- Settling one name leaves the verdicts on the others. -/
theorem settled?_settle_of_ne (f : Freshness) {name other : String} (verdict : Bool)
    (h : name ≠ other) : (f.settle name verdict).2.settled? other = f.settled? other := by
  simp only [settle, settled?]
  cases f.verdicts.find? name with
  | none => simp [Table.find?_insert_of_ne _ _ h]
  | some earlier => rfl

end Freshness

end BodyCache
