import BodyCache.Cache.Lookup
import BodyCache.Notice

/-!
# The cache of a session

A cache is opened once per session, with a snapshot or disabled: without a readable pair of files
the cache is disabled, and every lookup misses. Opening is meant never to fail, but takes the
process with it when a container file asks for more memory than there is. Lookups settle verdicts on
modules; those made through `lookup` are counted as well.

## Main statements

* `Cache.open`: opens a cache.
* `Cache.outcome`, `Cache.lookup`: lookups without and with counting.
* `Cache.report`: the report at the end of a session.
-/

namespace BodyCache

/-- A cache: its snapshot, unless it is disabled, what is known about modules, and the counts of
lookups. -/
structure Cache where
  snapshot : Option Snapshot := none
  freshness : Freshness := {}
  hits : UInt64 := 0
  misses : UInt64 := 0

namespace Cache

/-! ### Opening -/

/-- A cache that never hits. -/
def disabled : Cache := {}

/-- A cache over a snapshot, at the beginning of a session. -/
def ofSnapshot (s : Snapshot) : Cache :=
  { snapshot := some s
    freshness := .ofRecords (s.map.map.modules.map fun m => (m.name, m.fingerprint)) }

/-- Whether lookups may hit. -/
def isReady (c : Cache) : Bool := c.snapshot.isSome

/-- The bytes that a process of a 64-bit machine can address: 47 bits. -/
def addressSpace : Nat := 0x800000000000

/-- Opens the snapshot at the given paths, on a machine that can make room for `memory` bytes. -/
def «open» (memory : Nat) (files : FileTree) (p : SnapshotPaths) :
    Except OutOfMemory (Cache × List Notice) :=
  if !p.exist files then .ok (disabled, [.noSnapshot p.container])
  else
    match Snapshot.load memory files p with
    | .ok (.ok s) => .ok (ofSnapshot s, [.loaded s.container.methodCount])
    | .ok (.error e) => .ok (disabled, [.notLoaded e])
    | .error e => .error e

/-- Opens the snapshot that the settings point to. -/
def ofSettings (memory : Nat) (files : FileTree) (s : Settings) :
    Except OutOfMemory (Cache × List Notice) :=
  if s.enabled then Cache.open memory files s.paths else .ok (disabled, [])

/-! ### Lookups -/

/-- What a lookup gives: the outcome, the questions put to the symbols, the notices, and the cache
after it. -/
structure Result where
  outcome : Outcome
  queries : List Query := []
  notices : List Notice := []
  cache : Cache

/-- The notices about an outcome that are given with or without counting. -/
def noticesOf (scope : ScopeId) : Outcome → List Notice
  | .miss .noBody => [.noBody scope]
  | _ => []

/-- A lookup in a snapshot. -/
def consult (c : Cache) (s : Snapshot) (files : FileTree) (r : Request) : Result :=
  match r.source with
  | none => { outcome := .miss .moduleModified, cache := c }
  | some m =>
    let judgement := c.freshness.judge files m
    let unreadable := (judgement.unreadable.map (Notice.unreadableModule m.name)).toList
    let after := { c with freshness := judgement.freshness }
    if judgement.modified then
      { outcome := .miss .moduleModified, notices := unreadable, cache := after }
    else
      let a := s.answer r m.name
      { outcome := a.outcome
        queries := a.queries
        notices := unreadable ++ noticesOf r.scope a.outcome
        cache := after }

/-- A lookup that is not counted. -/
def outcome (c : Cache) (files : FileTree) (r : Request) : Result :=
  if r.scope.isSentinel then { outcome := .miss .noScope, cache := c }
  else
    match c.snapshot with
    | none => { outcome := .miss .disabled, cache := c }
    | some s => c.consult s files r

/-- The notices about an outcome that are given with counting only. -/
def failureNotices (scope : ScopeId) : Outcome → List Notice
  | .unresolved e => [.notReusable scope e]
  | .inconsistent e => [.inconsistent scope e]
  | _ => []

/-- The cache with one more lookup counted. -/
def count (c : Cache) (hit : Bool) : Cache :=
  if hit then { c with hits := c.hits + 1 } else { c with misses := c.misses + 1 }

/-- A lookup that is counted. -/
def lookup (c : Cache) (files : FileTree) (r : Request) : Result :=
  let result := c.outcome files r
  { result with
    notices := result.notices ++ failureNotices r.scope result.outcome
    cache := result.cache.count result.outcome.entry?.isSome }

/-! ### Statistics -/

/-- The number of counted lookups. -/
def total (c : Cache) : UInt64 := c.hits + c.misses

/-- The report at the end of a session; a disabled cache has nothing to report. -/
def report (c : Cache) : List Notice := if c.isReady then [.statistics c.hits c.misses] else []

end Cache

end BodyCache
