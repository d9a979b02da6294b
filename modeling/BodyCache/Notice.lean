import BodyCache.Cache.Lookup

/-!
# Notices

What the cache reports while it works. A notice has a severity, a message and named fields; the
kinds of notices are listed here, and everything else is computed from them.
-/

namespace BodyCache

/-- How serious a notice is. -/
inductive Severity where
  | error
  | warning
  | info
  | debug
  deriving DecidableEq, Repr

/-- The value of a field of a notice. -/
inductive NoticeValue where
  | text (s : String)
  | count (n : Nat)
  deriving DecidableEq, Repr

/-- Something the cache reports. -/
inductive Notice where
  /-- There is no pair of files to open. -/
  | noSnapshot (container : Path)
  /-- A snapshot was opened. -/
  | loaded (methods : Nat)
  /-- A snapshot could not be opened. -/
  | notLoaded (cause : SnapshotError)
  /-- The file of a module could not be read. -/
  | unreadableModule (name : String) (cause : FileError)
  /-- The cached method has no body. -/
  | noBody (method : ScopeId)
  /-- A reference of the cached body cannot be carried over. -/
  | notReusable (method : ScopeId) (cause : ResolveError)
  /-- The cached method has another prototype. -/
  | inconsistent (method : ScopeId) (cause : InternalError)
  /-- How many lookups succeeded. -/
  | statistics (hits misses : UInt64)
  deriving DecidableEq

namespace Notice

/-- How serious a notice is. -/
def severity : Notice → Severity
  | noSnapshot _ | loaded _ | unreadableModule .. | noBody _ | notReusable .. => .debug
  | notLoaded _ => .warning
  | inconsistent .. => .error
  | statistics .. => .info

/-- The message of a notice. -/
def message : Notice → String
  | noSnapshot _ => "compiler cache: no snapshot found, cache disabled"
  | loaded _ => "compiler cache: snapshot loaded"
  | notLoaded _ => "compiler cache: initialization failed, cache disabled"
  | unreadableModule .. => "compiler cache: unable to fingerprint module"
  | noBody _ => "compiler cache: cached method has no body"
  | notReusable .. => "compiler cache: cached body not reusable"
  | inconsistent .. => "compiler cache: inconsistent snapshot"
  | statistics hits misses =>
    "compiler cache: " ++ hits.toNat.repr ++ " of " ++ (hits + misses).toNat.repr ++
      " method bodies reused"

/-- The fields of a notice. -/
def fields : Notice → List (String × NoticeValue)
  | noSnapshot container => [("container", .text container.text)]
  | loaded methods => [("methods", .count methods)]
  | notLoaded cause => [("error", .text cause.message)]
  | unreadableModule name cause => [("module", .text name), ("error", .text cause.message)]
  | noBody method => [("method", .text method.text)]
  | notReusable method cause => [("method", .text method.text), ("error", .text cause.message)]
  | inconsistent method cause => [("method", .text method.text), ("error", .text cause.message)]
  | statistics hits misses => [("hits", .count hits.toNat), ("misses", .count misses.toNat)]

end Notice

end BodyCache
