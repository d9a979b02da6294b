import BodyCache.Freshness
import BodyCache.Retarget.Pass
import BodyCache.Snapshot

/-!
# Looking up a cached body

A request names a method that is about to be compiled: its stable identity, the module it is
declared in, and the name and prototype it will have. A snapshot answers with the body that the
previous compilation emitted for the method, retargeted, if

* the map records the method for the same module, or not at all,
* the container holds a method under the recorded names or, without a record, under the names of
  the request,
* that method has a body and the requested prototype, and
* every reference of the body can be carried over.

## Main statements

* `Snapshot.answer`: the answer of a snapshot to a request for a method of an unmodified module.
-/

namespace BodyCache

/-! ### Internal errors -/

/-- A fault of the cache itself. -/
structure InternalError where
  description : String
  deriving DecidableEq, Repr

namespace InternalError

/-- The message about the fault. -/
def message (e : InternalError) : String := "internal compiler error: " ++ e.description

end InternalError

/-! ### Requests and outcomes -/

/-- A method that is about to be compiled. -/
structure Request where
  name : String
  prototype : Prototype
  scope : ScopeId
  source : Option SourceModule
  symbols : Symbols

/-- A body that can be reused. -/
structure CacheEntry where
  body : MethodBody
  methodEntry : Option MethodEntry
  sourcePositions : Option (List SourcePosition)
  sourceFile : Option String
  deriving DecidableEq

/-- Why there is nothing to reuse. -/
inductive MissReason where
  /-- The method has no stable identity. -/
  | noScope
  /-- The cache is disabled. -/
  | disabled
  /-- The module changed, or is not known, or is not the one the body was compiled from. -/
  | moduleModified
  /-- There is no such method in the snapshot. -/
  | notCached
  /-- The cached method has no body. -/
  | noBody
  deriving DecidableEq, Repr

/-- The result of a lookup. -/
inductive Outcome where
  | hit (entry : CacheEntry)
  | miss (reason : MissReason)
  /-- A reference of the body cannot be carried over. -/
  | unresolved (cause : ResolveError)
  /-- The cached method has another prototype than the requested one. -/
  | inconsistent (cause : InternalError)
  deriving DecidableEq

namespace Outcome

/-- The entry of a hit. -/
def entry? : Outcome → Option CacheEntry
  | hit e => some e
  | _ => none

end Outcome

/-- The answer to a request, with the questions that were put to the symbols. -/
structure Answer where
  outcome : Outcome
  queries : List Query := []
  deriving DecidableEq

namespace Snapshot

/-- Whether the map records another module for the method than the given one. -/
def fromOtherModule (record : Option SymbolMap.Record) (moduleName : String) : Bool :=
  (record.bind fun r => r.declaring.moduleName).any (· ≠ moduleName)

/-- The cached method for a request: by its record, or by the names of the request. -/
def cached? (s : Snapshot) (r : Request) (record : Option SymbolMap.Record) :
    Option Container.IndexedMethod :=
  match record with
  | some rec =>
    s.container.method? rec.emittedOwner rec.method.emittedName rec.method.emittedSignature
  | none => s.container.method? r.scope.typeScope.descriptor r.name r.prototype.signature

/-- The report about a cached method whose prototype is not the requested one. -/
def prototypeClash (r : Request) (found : Prototype) : InternalError where
  description := "cached method for " ++ r.scope.text ++ " has prototype " ++ found.signature ++
    ", expected " ++ r.prototype.signature

/-- The entry for a retargeted body. -/
def entryOf (record : Option SymbolMap.Record) (found : Container.IndexedMethod)
    (body : MethodBody) : CacheEntry where
  body := body
  methodEntry := record.map (·.method)
  sourcePositions := (record.map (·.method.positions)).filter (· ≠ [])
  sourceFile := found.owner.sourceFile

/-- The answer once the cached body is known. -/
def answerWith (s : Snapshot) (r : Request) (record : Option SymbolMap.Record)
    (found : Container.IndexedMethod) (body : MethodBody) : Answer :=
  if found.method.prototype ≠ r.prototype then
    { outcome := .inconsistent (prototypeClash r found.method.prototype) }
  else
    match Pass.run {} (Pass.carryBody ⟨s.map, r.symbols⟩ body) with
    | (.ok retargeted, memory) =>
      { outcome := .hit (entryOf record found retargeted), queries := memory.queries }
    | (.error e, memory) => { outcome := .unresolved e, queries := memory.queries }

/-- The answer to a request for a method of an unmodified module. -/
def answer (s : Snapshot) (r : Request) (moduleName : String) : Answer :=
  let record := s.map.methodByScope? r.scope
  if fromOtherModule record moduleName then { outcome := .miss .moduleModified }
  else
    match s.cached? r record with
    | none => { outcome := .miss .notCached }
    | some found =>
      match found.method.body with
      | none => { outcome := .miss .noBody }
      | some body => s.answerWith r record found body

end Snapshot

end BodyCache
